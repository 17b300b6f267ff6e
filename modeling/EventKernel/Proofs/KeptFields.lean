import EventKernel.Document.Reading
import EventKernel.Json.Reader

set_option autoImplicit false

/-! Records of which some fields were left out. A field that was kept is read as it was; one that
was left out is a failure where it is required, and its standard value where there is one. -/

namespace EventKernel.Document

/-- The same record without the fields that are not kept. -/
def keepFields (kept : String → Bool) : Document → Document
  | table fields => table (fields.filter fun field => kept field.1)
  | document => document

/-- The same record, where the records under each name have lost the fields that are not kept. -/
def keepWithin (within : String → String → Bool) : Document → Document
  | table fields => table (fields.map fun field => (field.1, field.2.keepFields (within field.1)))
  | document => document

variable {α : Type}

theorem keepFields_all (document : Document) : document.keepFields (fun _ => true) = document := by
  cases document with
  | table fields => exact congrArg table (List.filter_eq_self.mpr fun _ _ => rfl)
  | _ => rfl

theorem keepWithin_all (document : Document) :
    document.keepWithin (fun _ _ => true) = document := by
  cases document with
  | table fields =>
      refine congrArg table ((List.map_congr_left fun field _ => ?_).trans (List.map_id fields))
      rw [keepFields_all]
      rfl
  | _ => rfl

private theorem lookup_kept (fields : List (String × Document)) (kept : String → Bool)
    (name : String) :
    (fields.filter fun field => kept field.1).lookup name =
      if kept name then fields.lookup name else none := by
  induction fields with
  | nil => exact (ite_self none).symm
  | cons field rest ih =>
      obtain ⟨other, value⟩ := field
      by_cases same : name = other
      · subst same
        rw [List.filter_cons]
        cases stays : kept name with
        | true =>
            rw [if_pos rfl, List.lookup_cons_self, if_pos rfl, List.lookup_cons_self]
        | false =>
            rw [if_neg Bool.false_ne_true, ih, stays]
            rfl
      · have apart : (name == other) = false := beq_eq_false_iff_ne.mpr same
        have elsewhere (others : List (String × Document)) :
            ((other, value) :: others).lookup name = others.lookup name := by
          rw [List.lookup_cons, apart]
        rw [elsewhere, List.filter_cons]
        split
        · rw [elsewhere, ih]
        · exact ih

theorem Reading.record?_kept (reading : Reading) (names : List String) (document : Document)
    (kept : String → Bool) (shape : document = table document.fields)
    (listed : document.fields.map Prod.fst = names) (distinct : names.Nodup) :
    reading.record? names (document.keepFields kept) =
      some (document.fields.filter fun field => kept field.1) := by
  rw [shape]
  generalize document.fields = fields at listed
  subst listed
  have known : ∀ field ∈ fields.filter fun field => kept field.1,
      (fields.map Prod.fst).contains field.1 = true := fun field member =>
    List.contains_iff_mem.mpr (List.mem_map_of_mem (List.mem_filter.mp member).1)
  unfold keepFields Reading.record? Document.fields
  simp only [List.partition_eq_filter_filter]
  rw [List.filter_eq_self.mpr known, if_pos]
  refine ⟨List.Nodup.sublist (List.Sublist.map _ List.filter_sublist) distinct, ?_⟩
  rw [List.all_eq_true]
  intro field member
  obtain ⟨present, unknown⟩ := List.mem_filter.mp member
  rw [Function.comp, known field present] at unknown
  cases unknown

theorem required_kept (fields : List (String × Document)) (kept : String → Bool) (name : String)
    (read : Document → Option α) :
    required (fields.filter fun field => kept field.1) name read =
      if kept name then required fields name read else none := by
  unfold required
  rw [lookup_kept]
  cases kept name with
  | true => rfl
  | false => rfl

theorem defaulted_kept (fields : List (String × Document)) (kept : String → Bool) (name : String)
    (fallback : α) (read : Document → Option α) :
    defaulted (fields.filter fun field => kept field.1) name fallback read =
      if kept name then defaulted fields name fallback read else some fallback := by
  unfold defaulted
  rw [lookup_kept]
  cases kept name with
  | true => rfl
  | false => rfl

theorem defaulted_of_required {fields : List (String × Document)} {name : String}
    {read : Document → Option α} {value : α} (present : required fields name read = some value)
    (fallback : α) : defaulted fields name fallback read = some value := by
  unfold required at present
  unfold defaulted
  split at present
  · exact present
  · cases present

theorem Reading.lookup_of_record {reading : Reading} {names : List String}
    {fields record : List (String × Document)} {name : String} {value : Document}
    (read : reading.record? names (table fields) = some record) (known : names.contains name)
    (member : (name, value) ∈ fields) : record.lookup name = some value := by
  unfold Reading.record? at read
  simp only [List.partition_eq_filter_filter] at read
  split at read
  · rename_i accepted
    cases read
    obtain ⟨distinct, _⟩ := accepted
    have held : (name, value) ∈ fields.filter fun field => names.contains field.1 :=
      List.mem_filter.mpr ⟨member, known⟩
    generalize fields.filter (fun field => names.contains field.1) = record at distinct held
    induction record with
    | nil => cases held
    | cons field rest ih =>
        obtain ⟨absent, distinct⟩ := List.nodup_cons.mp distinct
        rcases List.mem_cons.mp held with same | later
        · rw [← same, List.lookup_cons_self]
        · have other : (name == field.1) = false := beq_eq_false_iff_ne.mpr fun same =>
            absent (same ▸ List.mem_map_of_mem later)
          rw [List.lookup_cons, other]
          exact ih distinct later
  · cases read

theorem bind_kept {β : Type} (stays : Bool) (value : α) (next : α → Option β) :
    (if stays then some value else none).bind next = if stays then next value else none := by
  cases stays with
  | true => rfl
  | false => rfl

theorem kept_and (former latter : Bool) (result : Option α) :
    (if former then (if latter then result else none) else none) =
      if former && latter then result else none := by
  cases former with
  | true => rfl
  | false => rfl

theorem kept_or_standard (stays : Bool) (value fallback : α) :
    (if stays then some value else some fallback) = some (if stays then value else fallback) := by
  cases stays with
  | true => rfl
  | false => rfl

theorem readList_ofList {write : α → Document} {read : Document → Option α} {items : List α}
    (reads : ∀ item ∈ items, read (write item) = some item) :
    readList read (list (items.map write)) = some items := by
  change (items.map write).mapM read = some items
  induction items with
  | nil => rfl
  | cons item rest ih =>
      rw [List.map_cons, List.mapM_cons, reads item List.mem_cons_self,
        ih fun other member => reads other (List.mem_cons_of_mem _ member)]
      rfl

theorem readList_eq_none {read : Document → Option α} {items : List Document} {item : Document}
    (member : item ∈ items) (unread : read item = none) : readList read (list items) = none := by
  change items.mapM read = none
  induction items with
  | nil => cases member
  | cons first rest ih =>
      rw [List.mapM_cons]
      rcases List.mem_cons.mp member with same | later
      · rw [← same, unread]
        rfl
      · rw [ih later]
        cases read first with
        | none => rfl
        | some value => rfl

end EventKernel.Document

namespace EventKernel.Json

open Document

theorem word64_ofNat (value : UInt64) : reading.word64 (ofNat value.toNat) = some value := by
  change (if value.toNat < UInt64.size then some value.toNat.toUInt64 else none) = some value
  rw [if_pos value.toNat_lt_size, Nat.toUInt64, UInt64.ofNat_toNat]

theorem word32_ofNat (value : UInt32) : reading.word32 (ofNat value.toNat) = some value := by
  change (if value.toNat < UInt32.size then some value.toNat.toUInt32 else none) = some value
  rw [if_pos value.toNat_lt_size, Nat.toUInt32, UInt32.ofNat_toNat]

theorem size_ofNat {value : Nat} (fits : value < UInt64.size) :
    reading.size (ofNat value) = some value := if_pos fits

end EventKernel.Json
