import Trellis.Core.Record
import Mathlib.Data.List.Sort
import Mathlib.Data.String.Basic

/-!
# Three-way merge

`threeWayMerge` of `common/concurrency/conflict-resolver.ts`: the fields of a base, of what is
stored now and of what is proposed are merged one by one in sorted order.
-/

namespace Trellis.Common

open Core List

structure FieldConflict (α : Type) where
  field : String
  base : Option α
  current : Option α
  proposed : Option α

structure ThreeWayMergeResult (α : Type) where
  merged : Record α
  conflicts : List (FieldConflict α)
  changed : Bool

namespace ThreeWayMergeResult

variable {α : Type}

def assign (result : ThreeWayMergeResult α) (field : String) : Option α → ThreeWayMergeResult α
  | some value => { result with merged := result.merged.set field value }
  | none => result

@[simp]
theorem conflicts_assign (result : ThreeWayMergeResult α) (field : String) (value : Option α) :
    (result.assign field value).conflicts = result.conflicts := by
  cases value <;> rfl

variable {result : ThreeWayMergeResult α} {value : Option α} {field : String}

theorem get_assign_self (hnew : result.merged.get field = none) :
    (result.assign field value).merged.get field = value := by
  cases value with
  | none => exact hnew
  | some value => exact Record.get_set_self result.merged field value

theorem get_assign_of_ne {field' : String} (hne : field' ≠ field) :
    (result.assign field value).merged.get field' = result.merged.get field' := by
  cases value with
  | none => rfl
  | some value => exact Record.get_set_of_ne result.merged value hne

end ThreeWayMergeResult

variable {α : Type} [DecidableEq α]

variable (base current proposed : Record α)

def mergedFields : List String :=
  (base.keys ++ current.keys ++ proposed.keys).dedup.insertionSort (· ≤ ·)

def mergeField (result : ThreeWayMergeResult α) (field : String) : ThreeWayMergeResult α :=
  let b := base.get field
  let c := current.get field
  let p := proposed.get field
  if p = c ∨ p = b then result.assign field c
  else if c = b then { result.assign field p with changed := true }
  else { result with conflicts := result.conflicts ++ [⟨field, b, c, p⟩] }

def threeWayMerge : ThreeWayMergeResult α :=
  (mergedFields base current proposed).foldl (mergeField base current proposed)
    { merged := .empty, conflicts := [], changed := false }

/-! ## The fields -/

omit [DecidableEq α] in
theorem get_eq_none_of_not_mem_mergedFields {base current proposed : Record α} {field : String}
    (hmem : field ∉ mergedFields base current proposed) :
    base.get field = none ∧ current.get field = none ∧ proposed.get field = none := by
  simp only [mergedFields, mem_insertionSort, mem_dedup, mem_append, not_or] at hmem
  obtain ⟨⟨hbase, hcurrent⟩, hproposed⟩ := hmem
  exact ⟨Record.get_eq_none_iff.mpr hbase, Record.get_eq_none_iff.mpr hcurrent,
    Record.get_eq_none_iff.mpr hproposed⟩

omit [DecidableEq α] in
theorem nodup_mergedFields : (mergedFields base current proposed).Nodup :=
  (perm_insertionSort _ _).nodup_iff.mpr (nodup_dedup _)

/-! ## The loop -/

variable {base current proposed : Record α}

def mergedValue (base current proposed : Record α) (field : String) : Option α :=
  if proposed.get field = base.get field then current.get field else proposed.get field

/-- What the loop has settled when it has come past `fields`. -/
structure Settled (base current proposed : Record α) (fields : List String)
    (result : ThreeWayMergeResult α) : Prop where
  merged : result.conflicts = [] → ∀ field ∈ fields,
    result.merged.get field = mergedValue base current proposed field
  others : ∀ field, field ∉ fields → result.merged.get field = none
  unchanged : result.conflicts = [] → result.changed = false → ∀ field ∈ fields,
    mergedValue base current proposed field = current.get field

variable {fields : List String}

theorem Settled.assign {field : String} {result : ThreeWayMergeResult α}
    {value : Option α} {changed : Bool} (hsettled : Settled base current proposed fields result)
    (hnew : field ∉ fields) (hvalue : value = mergedValue base current proposed field)
    (hchanged : changed = false →
      result.changed = false ∧ mergedValue base current proposed field = current.get field) :
    Settled base current proposed (fields ++ [field])
      { result.assign field value with changed := changed } where
  merged hnone field' hmem := by
    rw [ThreeWayMergeResult.conflicts_assign] at hnone
    by_cases heq : field' = field
    · subst heq
      rw [← hvalue]
      exact ThreeWayMergeResult.get_assign_self (hsettled.others field' hnew)
    · have hold : field' ∈ fields := by simpa [heq] using hmem
      rw [← hsettled.merged hnone field' hold]
      exact ThreeWayMergeResult.get_assign_of_ne heq
  others field' hmem := by
    simp only [mem_append, mem_singleton, not_or] at hmem
    rw [← hsettled.others field' hmem.1]
    exact ThreeWayMergeResult.get_assign_of_ne hmem.2
  unchanged hnone hsame field' hmem := by
    rw [ThreeWayMergeResult.conflicts_assign] at hnone
    obtain ⟨hbefore, hfield⟩ := hchanged hsame
    rcases mem_append.mp hmem with hold | hlast
    · exact hsettled.unchanged hnone hbefore field' hold
    · rwa [mem_singleton.mp hlast]

theorem settled_mergeField {field : String} {result : ThreeWayMergeResult α}
    (hsettled : Settled base current proposed fields result) (hnew : field ∉ fields) :
    Settled base current proposed (fields ++ [field])
      (mergeField base current proposed result field) := by
  by_cases hkeep : proposed.get field = current.get field ∨ proposed.get field = base.get field
  · have hvalue : current.get field = mergedValue base current proposed field := by
      rw [mergedValue]
      split_ifs with hbase
      · rfl
      · exact (hkeep.resolve_right hbase).symm
    have hstep : mergeField base current proposed result field =
        { result.assign field (current.get field) with changed := result.changed } := by
      rw [mergeField, if_pos hkeep]
      cases current.get field <;> rfl
    rw [hstep]
    exact hsettled.assign hnew hvalue fun hsame => ⟨hsame, hvalue.symm⟩
  · by_cases htake : current.get field = base.get field
    · have hvalue : proposed.get field = mergedValue base current proposed field :=
        (if_neg (not_or.mp hkeep).2).symm
      rw [mergeField, if_neg hkeep, if_pos htake]
      exact hsettled.assign hnew hvalue fun hsame => (Bool.noConfusion hsame)
    · rw [mergeField, if_neg hkeep, if_neg htake]
      refine ⟨fun hnone => ?_, fun field' hmem => ?_, fun hnone => ?_⟩
      · exact (append_ne_nil_of_right_ne_nil _ (cons_ne_nil _ _) hnone).elim
      · exact hsettled.others field' fun hold => hmem (mem_append_left _ hold)
      · exact (append_ne_nil_of_right_ne_nil _ (cons_ne_nil _ _) hnone).elim

theorem settled_foldl (hnodup : fields.Nodup) :
    Settled base current proposed fields (fields.foldl (mergeField base current proposed)
      { merged := .empty, conflicts := [], changed := false }) := by
  induction fields using reverseRecOn with
  | nil => exact ⟨fun _ field hmem => (not_mem_nil hmem).elim, fun _ _ => rfl,
      fun _ _ field hmem => (not_mem_nil hmem).elim⟩
  | append_singleton fields field ih =>
    rw [foldl_append]
    refine settled_mergeField (ih hnodup.of_append_left) fun hmem => ?_
    exact disjoint_of_nodup_append hnodup hmem mem_cons_self

/-! ## The merge -/

variable (hnone : (threeWayMerge base current proposed).conflicts = [])
include hnone

theorem get_threeWayMerge
    (field : String) : (threeWayMerge base current proposed).merged.get field =
      mergedValue base current proposed field := by
  have hsettled : Settled base current proposed _ (threeWayMerge base current proposed) :=
    settled_foldl (nodup_mergedFields base current proposed)
  by_cases hmem : field ∈ mergedFields base current proposed
  · exact hsettled.merged hnone field hmem
  · obtain ⟨hbase, hcurrent, hproposed⟩ := get_eq_none_of_not_mem_mergedFields hmem
    rw [hsettled.others field hmem, mergedValue, hbase, hproposed, if_pos rfl, hcurrent]

theorem mergedValue_of_not_changed
    (hsame : (threeWayMerge base current proposed).changed = false) (field : String) :
    mergedValue base current proposed field = current.get field := by
  have hsettled : Settled base current proposed _ (threeWayMerge base current proposed) :=
    settled_foldl (nodup_mergedFields base current proposed)
  by_cases hmem : field ∈ mergedFields base current proposed
  · exact hsettled.unchanged hnone hsame field hmem
  · obtain ⟨hbase, hcurrent, hproposed⟩ := get_eq_none_of_not_mem_mergedFields hmem
    rw [mergedValue, hbase, hproposed, if_pos rfl]

omit hnone

end Trellis.Common
