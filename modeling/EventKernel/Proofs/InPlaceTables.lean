import EventKernel.Proofs.ShortestDelays
import Mathlib.Logic.Basic

set_option autoImplicit false

/-! Tables from links, built in place. The cells stand in one array, row by row. Links are entered
and paths are weighed one cell at a time, in the array that is read: the way to the entity that is
admitted is read once for a row, and a row without such a way is skipped. The array comes out as if
every row had been improved at once, since neither the row nor the column of the admitted entity
changes while it is admitted. -/

namespace EventKernel.Queue.LatencyMatrix

def lower (cells : Array UInt64) (index : Nat) (delay : UInt64) : Array UInt64 :=
  cells.modify index fun held => min held delay

def enterLink (size : Nat) (cells : Array UInt64) (link : Link) : Array UInt64 :=
  lower (lower cells (link.first.index * size + link.second.index) link.delay)
    (link.second.index * size + link.first.index) link.delay

/-- No entity is known to affect another. -/
def startingCells (size : Nat) : Array UInt64 :=
  (List.range size).foldl (fun cells entity => cells.setIfInBounds (entity * size + entity) 0)
    (Array.replicate (size * size) unreachable)

/-- Weighs the path that leads through one entity to another. -/
def weigh (size middle source : Nat) (toMiddle : UInt64) (cells : Array UInt64) (target : Nat) :
    Array UInt64 :=
  let through := Word.saturatingAdd toMiddle (cells.getD (middle * size + target) unreachable)
  if through < cells.getD (source * size + target) unreachable then
    cells.setIfInBounds (source * size + target) through
  else cells

def weighRow (size middle : Nat) (cells : Array UInt64) (source : Nat) : Array UInt64 :=
  let toMiddle := cells.getD (source * size + middle) unreachable
  if toMiddle = unreachable then cells
  else (List.range size).foldl (weigh size middle source toMiddle) cells

def weighRows (size : Nat) (cells : Array UInt64) (middle : Nat) : Array UInt64 :=
  (List.range size).foldl (weighRow size middle) cells

def shortenInPlace (size : Nat) (links : List Link) : Array UInt64 :=
  (List.range size).foldl (weighRows size) (links.foldl (enterLink size) (startingCells size))

private theorem cell_injective {size source target other column : Nat} (targetKnown : target < size)
    (columnKnown : column < size) (same : source * size + target = other * size + column) :
    source = other ∧ target = column := by
  have before {first second : Nat} (below : first < second) :
      first * size + size ≤ second * size := by
    rw [← Nat.succ_mul]
    exact Nat.mul_le_mul_right _ below
  rcases Nat.lt_trichotomy source other with below | rfl | above
  · have rows := before below
    omega
  · exact ⟨rfl, Nat.add_left_cancel same⟩
  · have rows := before above
    omega

structure Holds (size : Nat) (cells : Array UInt64) (table : Nat → Nat → UInt64) : Prop where
  width : cells.size = size * size
  cell : ∀ source target, source < size → target < size →
    cells[source * size + target]? = some (table source target)

def replaced (table : Nat → Nat → UInt64) (source target : Nat) (latency : UInt64) :
    Nat → Nat → UInt64 :=
  fun row column => if row = source ∧ column = target then latency else table row column

namespace Holds

variable {size source target : Nat} {cells : Array UInt64} {table other : Nat → Nat → UInt64}

/-- All cells of the array are those of the table. -/
theorem eq_flatten (holds : Holds size cells table) :
    cells = (tabulate size table).flatten.toArray := by
  have length (sources : List Nat) : (sources.map fun source =>
      (List.range size).map fun target => table source target).flatten.length =
        sources.length * size := by
    induction sources with
    | nil => exact (Nat.zero_mul size).symm
    | cons first rest ih =>
        rw [List.map_cons, List.flatten_cons, List.length_append, ih, List.length_map,
          List.length_range, List.length_cons, Nat.succ_mul, Nat.add_comm]
  have total : (tabulate size table).flatten.length = size * size := by
    refine (length (List.range size)).trans ?_
    rw [List.length_range]
  apply Array.ext_getElem?
  intro index
  refine Eq.trans ?_ List.getElem?_toArray.symm
  rcases Nat.lt_or_ge index (size * size) with known | past
  · have rowKnown : index / size < size := Nat.div_lt_of_lt_mul known
    have columnKnown : index % size < size := Nat.mod_lt _ (Nat.zero_lt_of_lt rowKnown)
    have position : index / size * size + index % size = index := by
      rw [Nat.mul_comm]
      exact Nat.div_add_mod index size
    have read := holds.cell _ _ rowKnown columnKnown
    rw [← getElem?_flatten_tabulate rowKnown columnKnown table, position] at read
    exact read
  · rw [Array.getElem?_eq_none (Nat.le_trans (Nat.le_of_eq holds.width) past),
      List.getElem?_eq_none (Nat.le_trans (Nat.le_of_eq total) past)]

private theorem congr (holds : Holds size cells table)
    (same : ∀ source target, source < size → target < size →
      table source target = other source target) : Holds size cells other where
  width := holds.width
  cell source target sourceKnown targetKnown := by
    rw [holds.cell source target sourceKnown targetKnown,
      same source target sourceKnown targetKnown]

variable (holds : Holds size cells table) (sourceKnown : source < size) (targetKnown : target < size)

include holds sourceKnown targetKnown

private theorem getD : cells.getD (source * size + target) unreachable = table source target := by
  rw [Array.getD_eq_getD_getElem?, holds.cell source target sourceKnown targetKnown,
    Option.getD_some]

private theorem set (latency : UInt64) :
    Holds size (cells.setIfInBounds (source * size + target) latency)
      (replaced table source target latency) where
  width := Array.size_setIfInBounds.trans holds.width
  cell row column rowKnown columnKnown := by
    unfold replaced
    split
    next same =>
      rw [same.1, same.2]
      exact Array.getElem?_setIfInBounds_self_of_lt
        (holds.width ▸ cell_lt sourceKnown targetKnown)
    next different =>
      rw [Array.getElem?_setIfInBounds_ne fun same =>
        different (cell_injective columnKnown targetKnown same.symm)]
      exact holds.cell row column rowKnown columnKnown

private theorem lower (delay : UInt64) :
    Holds size (lower cells (source * size + target) delay)
      (replaced table source target (min (table source target) delay)) where
  width := Array.size_modify.trans holds.width
  cell row column rowKnown columnKnown := by
    unfold LatencyMatrix.lower replaced
    rw [Array.getElem?_modify]
    split
    next same =>
      obtain ⟨rfl, rfl⟩ := cell_injective targetKnown columnKnown same
      rw [holds.cell source target sourceKnown targetKnown, if_pos ⟨rfl, rfl⟩]
      rfl
    next different =>
      rw [if_neg fun same => different (by rw [same.1, same.2])]
      exact holds.cell row column rowKnown columnKnown

end Holds

private theorem min_min_self (held delay : UInt64) :
    min (min held delay) delay = min held delay := by
  apply UInt64.toNat_inj.mp
  rw [toNat_min, toNat_min, Nat.min_assoc, Nat.min_self]

private theorem holds_startingCells (size : Nat) : Holds size (startingCells size)
    fun source target => if source = target then 0 else unreachable := by
  have step (entities : List Nat) : (∀ entity ∈ entities, entity < size) →
      ∀ (cells : Array UInt64) (table : Nat → Nat → UInt64), Holds size cells table →
        Holds size
          (entities.foldl (fun cells entity => cells.setIfInBounds (entity * size + entity) 0) cells)
          fun source target => if source = target ∧ source ∈ entities then 0
            else table source target := by
    induction entities with
    | nil =>
        intro _ cells table holds
        refine holds.congr fun source target _ _ => ?_
        rw [if_neg fun both => List.not_mem_nil both.2]
    | cons entity rest ih =>
        intro known cells table holds
        have here := known entity List.mem_cons_self
        refine (ih (fun other later => known other (List.mem_cons_of_mem _ later)) _ _
          (holds.set here here 0)).congr fun source target _ _ => ?_
        unfold replaced
        by_cases same : source = entity ∧ target = entity
        · have listed : source = target ∧ source ∈ entity :: rest :=
            ⟨same.1.trans same.2.symm, same.1 ▸ List.mem_cons_self⟩
          rw [if_pos same, if_pos listed, ite_self]
        · rw [if_neg same]
          refine if_congr (and_congr_right fun equal => ?_) rfl rfl
          rw [List.mem_cons]
          exact (or_iff_right fun first => same ⟨first, equal ▸ first⟩).symm
  have blank : Holds size (Array.replicate (size * size) unreachable) fun _ _ => unreachable := by
    refine ⟨Array.size_replicate, fun source target sourceKnown targetKnown => ?_⟩
    rw [Array.getElem?_replicate, if_pos (cell_lt sourceKnown targetKnown)]
  exact (step (List.range size) (fun _ listed => List.mem_range.mp listed) _ _ blank).congr
    fun source target sourceKnown _ =>
      if_congr (and_iff_left (List.mem_range.mpr sourceKnown)) rfl rfl

private theorem holds_enterLink {size : Nat} {cells : Array UInt64} {table : Nat → Nat → UInt64}
    (holds : Holds size cells table) (link : Link)
    (known : link.first.index < size ∧ link.second.index < size) :
    Holds size (enterLink size cells link) fun source target =>
      tryLink source target (table source target) link := by
  refine ((holds.lower known.1 known.2 link.delay).lower known.2 known.1 link.delay).congr
    fun source target _ _ => ?_
  unfold tryLink replaced
  generalize link.first.index = first
  generalize link.second.index = second
  by_cases back : source = second ∧ target = first
  · obtain ⟨rfl, rfl⟩ := back
    have joined : target = source ∧ source = target ∨ source = source ∧ target = target :=
      .inr ⟨rfl, rfl⟩
    rw [if_pos ⟨rfl, rfl⟩, if_pos joined]
    split
    next same => rw [same.1, min_min_self]
    next => rfl
  · rw [if_neg back]
    by_cases forth : source = first ∧ target = second
    · obtain ⟨rfl, rfl⟩ := forth
      rw [if_pos ⟨rfl, rfl⟩, if_pos (.inl ⟨rfl, rfl⟩)]
    · rw [if_neg forth, if_neg]
      rintro (⟨left, right⟩ | ⟨right, left⟩)
      · exact forth ⟨left.symm, right.symm⟩
      · exact back ⟨right.symm, left.symm⟩

private theorem holds_links {size : Nat} (links : List Link)
    (known : ∀ link ∈ links, link.first.index < size ∧ link.second.index < size)
    {cells : Array UInt64} {table : Nat → Nat → UInt64} (holds : Holds size cells table) :
    Holds size (links.foldl (enterLink size) cells) fun source target =>
      links.foldl (tryLink source target) (table source target) := by
  induction links generalizing cells table with
  | nil => exact holds
  | cons link rest ih =>
      exact ih (fun other later => known other (List.mem_cons_of_mem _ later))
        (holds_enterLink holds link (known link List.mem_cons_self))

section

variable {size middle source target : Nat} {cells : Array UInt64} {table : Nat → Nat → UInt64}

private theorem holds_weigh (holds : Holds size cells table) (middleKnown : middle < size)
    (sourceKnown : source < size) (targetKnown : target < size) (toMiddle : UInt64) :
    Holds size (weigh size middle source toMiddle cells target)
      (replaced table source target
        (min (table source target) (Word.saturatingAdd toMiddle (table middle target)))) := by
  unfold weigh
  rw [holds.getD middleKnown targetKnown, holds.getD sourceKnown targetKnown]
  generalize Word.saturatingAdd toMiddle (table middle target) = through
  by_cases quicker : through < table source target
  · have least : min (table source target) through = through := by
      apply UInt64.toNat_inj.mp
      rw [toNat_min, Nat.min_eq_right (Nat.le_of_lt (UInt64.lt_iff_toNat_lt.mp quicker))]
    simp only [if_pos quicker, least]
    exact holds.set sourceKnown targetKnown through
  · have least : min (table source target) through = table source target := by
      apply UInt64.toNat_inj.mp
      rw [toNat_min, Nat.min_eq_left (UInt64.le_iff_toNat_le.mp (UInt64.not_lt.mp quicker))]
    simp only [if_neg quicker, least]
    refine holds.congr fun row column _ _ => ?_
    unfold replaced
    split
    next same => rw [same.1, same.2]
    next => rfl

private theorem min_zero_add (latency : UInt64) :
    min latency (Word.saturatingAdd 0 latency) = latency := by
  apply UInt64.toNat_inj.mp
  rw [toNat_min, Word.toNat_saturatingAdd]
  have fits : latency.toNat < UInt64.size := latency.toNat_lt
  change min _ (min (0 + _) _) = _
  omega

/-- The row of the admitted entity is read while a row is written; if they are one, nothing is
written. -/
theorem holds_weigh_each (targets : List Nat) (listed : ∀ target ∈ targets, target < size)
    (holds : Holds size cells table) (middleKnown : middle < size) (sourceKnown : source < size)
    {toMiddle : UInt64} (ownRow : source = middle → toMiddle = 0) :
    Holds size (targets.foldl (weigh size middle source toMiddle) cells) fun row column =>
      if row = source ∧ column ∈ targets then
        min (table row column) (Word.saturatingAdd toMiddle (table middle column))
      else table row column := by
  induction targets generalizing cells table with
  | nil =>
      refine holds.congr fun row column _ _ => ?_
      rw [if_neg fun both => List.not_mem_nil both.2]
  | cons target rest ih =>
      have onward (column : Nat) : replaced table source target
          (min (table source target) (Word.saturatingAdd toMiddle (table middle target)))
            middle column = table middle column := by
        unfold replaced
        split
        next here =>
          rw [ownRow here.1.symm, ← here.1, ← here.2]
          exact min_zero_add _
        next => rfl
      have first := holds_weigh holds middleKnown sourceKnown
        (listed target List.mem_cons_self) toMiddle
      refine (ih (fun other later => listed other (List.mem_cons_of_mem _ later)) first).congr
        fun row column _ _ => ?_
      rw [onward]
      unfold replaced
      by_cases here : row = source
      · by_cases same : column = target
        · subst here same
          have first : row = row ∧ column = column := ⟨rfl, rfl⟩
          have listedFirst : row = row ∧ column ∈ column :: rest := ⟨rfl, List.mem_cons_self⟩
          rw [if_pos listedFirst, if_pos first]
          split
          · exact min_min_self _ _
          · rfl
        · have notFirst : ¬ (row = source ∧ column = target) := fun both => same both.2
          rw [if_neg notFirst]
          refine if_congr (and_congr_right fun _ => ?_) rfl rfl
          rw [List.mem_cons]
          exact (or_iff_right same).symm
      · simp only [here, false_and, if_false]

private theorem improve_arriving (self : table middle middle = 0) (source : Nat) :
    improve table middle source middle = table source middle := by
  apply UInt64.toNat_inj.mp
  rw [toNat_improve, self]
  have fits : (table source middle).toNat < UInt64.size := UInt64.toNat_lt _
  change min _ (min (_ + 0) _) = _
  omega

private theorem improve_leaving (self : table middle middle = 0) (target : Nat) :
    improve table middle middle target = table middle target := by
  unfold improve
  rw [self]
  exact min_zero_add _

private theorem improve_missing (missing : table source middle = unreachable) (target : Nat) :
    improve table middle source target = table source target := by
  apply UInt64.toNat_inj.mp
  rw [toNat_improve, missing]
  have fits : (table source target).toNat < UInt64.size := UInt64.toNat_lt _
  change min _ (min (UInt64.size - 1 + _) _) = _
  omega

private theorem holds_weighRow (holds : Holds size cells table) (middleKnown : middle < size)
    (sourceKnown : source < size) (self : table middle middle = 0) :
    Holds size (weighRow size middle cells source) fun row column =>
      if row = source then improve table middle row column else table row column := by
  unfold weighRow
  simp only [holds.getD sourceKnown middleKnown]
  by_cases missing : table source middle = unreachable
  · rw [if_pos missing]
    refine holds.congr fun row column _ _ => ?_
    split
    next here =>
      rw [here]
      exact (improve_missing missing column).symm
    next => rfl
  · rw [if_neg missing]
    refine (holds_weigh_each (List.range size) (fun _ listed => List.mem_range.mp listed) holds
      middleKnown sourceKnown fun here => here ▸ self).congr fun row column _ columnKnown => ?_
    by_cases here : row = source
    · rw [if_pos here, if_pos ⟨here, List.mem_range.mpr columnKnown⟩, here]
      rfl
    · rw [if_neg here, if_neg fun both => here both.1]

/-- The row and the column of the admitted entity are the same before and after each row. -/
theorem holds_weighRow_each (sources : List Nat) (listed : ∀ source ∈ sources, source < size)
    (holds : Holds size cells table) (middleKnown : middle < size)
    (self : table middle middle = 0) :
    Holds size (sources.foldl (weighRow size middle) cells) fun row column =>
      if row ∈ sources then improve table middle row column else table row column := by
  induction sources generalizing cells table with
  | nil =>
      refine holds.congr fun row column _ _ => ?_
      rw [if_neg List.not_mem_nil]
  | cons source rest ih =>
      have first := holds_weighRow holds middleKnown (listed source List.mem_cons_self) self
      generalize written : (fun row column => if row = source then improve table middle row column
        else table row column) = later at first
      have entry (row column : Nat) : later row column =
          if row = source then improve table middle row column else table row column :=
        congrFun (congrFun written.symm row) column
      have arriving (row : Nat) : later row middle = table row middle := by
        rw [entry, improve_arriving self, ite_self]
      have leaving (column : Nat) : later middle column = table middle column := by
        rw [entry, improve_leaving self, ite_self]
      refine (ih (fun other behind => listed other (List.mem_cons_of_mem _ behind)) first
        ((arriving middle).trans self)).congr fun row column _ _ => ?_
      have again : improve later middle row column = improve table middle row column := by
        unfold improve
        rw [arriving, leaving, entry]
        split
        · exact min_min_self _ _
        · rfl
      rw [again, entry]
      by_cases here : row = source
      · rw [if_pos here, ite_self, if_pos (here ▸ List.mem_cons_self)]
      · rw [if_neg here]
        refine if_congr ?_ rfl rfl
        rw [List.mem_cons]
        exact (or_iff_right here).symm

private theorem holds_weighRows (holds : Holds size cells table) (middleKnown : middle < size)
    (self : table middle middle = 0) :
    Holds size (weighRows size cells middle) (improve table middle) :=
  (holds_weighRow_each (List.range size) (fun _ listed => List.mem_range.mp listed) holds
    middleKnown self).congr fun _ _ rowKnown _ => if_pos (List.mem_range.mpr rowKnown)

private theorem holds_admitted (entities : List Nat) (listed : ∀ entity ∈ entities, entity < size)
    (holds : Holds size cells table) (self : ∀ entity, table entity entity = 0) :
    Holds size (entities.foldl (weighRows size) cells) (admitted table entities) := by
  induction entities generalizing cells table with
  | nil => exact holds
  | cons entity rest ih =>
      refine ih (fun other later => listed other (List.mem_cons_of_mem _ later))
        (holds_weighRows holds (listed entity List.mem_cons_self) (self entity)) fun other => ?_
      apply UInt64.toNat_inj.mp
      rw [toNat_improve, self other]
      exact Nat.zero_min _

end

theorem shortenInPlace_eq {size : Nat} {links : List Link}
    (known : ∀ link ∈ links, link.first.index < size ∧ link.second.index < size) :
    shortenInPlace size links = (shortestRows size links).flatten.toArray := by
  have entered : Holds size (links.foldl (enterLink size) (startingCells size))
      (directDelay links) := holds_links links known (holds_startingCells size)
  have holds := holds_admitted (List.range size) (fun _ listed => List.mem_range.mp listed) entered
    (directDelay_self links)
  rw [shortestRows_eq]
  exact holds.eq_flatten

end EventKernel.Queue.LatencyMatrix
