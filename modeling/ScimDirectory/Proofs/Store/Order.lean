import Mathlib.Data.Int.Order.Basic
import Mathlib.Data.List.Lex
import Mathlib.Data.List.Nodup
import Mathlib.Data.Prod.Lex
import Mathlib.Order.Fin.Basic
import ScimDirectory.Store.Tables

/-!
# The order of answers

Queries answer in the order of times of creation and then of keys. The order is that of a linear
order on what is compared, and rows with keys of their own are never on a par. So it does not
matter whether rows are picked before or after they are put in order.
-/

namespace ScimDirectory

/-- The order of identifiers is that of their digits. -/
theorem Uuid.le_iff {u v : Uuid} : u.le v = true ↔ u.digits ≤ v.digits := by
  rw [le, Bool.not_eq_true', Bool.eq_false_iff, Ne, List.lex_eq_true_iff_lex, ← not_lt]
  refine not_congr ?_
  simp only [decide_eq_true_eq]
  exact Iff.rfl

namespace Row

variable {type : ResourceType}

/-- What rows are compared by. -/
def orderKey (row : Row type) : Int ×ₗ ℕ ×ₗ List (Fin 16) :=
  toLex (row.created.seconds, toLex (row.created.nanos, row.id.digits))

end Row

namespace Tables

variable {type : ResourceType}

theorem inOrder_iff {a b : Row type} : inOrder a b = true ↔ a.orderKey ≤ b.orderKey := by
  have hsame : a.created = b.created ↔
      a.created.seconds = b.created.seconds ∧ a.created.nanos = b.created.nanos :=
    by cases a.created; cases b.created; simp
  simp only [inOrder, Instant.before, Row.orderKey, Prod.Lex.toLex_le_toLex, Bool.or_eq_true,
    Bool.and_eq_true, decide_eq_true_eq, beq_iff_eq, Uuid.le_iff, hsame]
  tauto

theorem inOrder_trans (a b c : Row type) (hab : inOrder a b = true) (hbc : inOrder b c = true) :
    inOrder a c = true :=
  inOrder_iff.mpr ((inOrder_iff.mp hab).trans (inOrder_iff.mp hbc))

theorem inOrder_total (a b : Row type) : (inOrder a b || inOrder b a) = true := by
  rw [Bool.or_eq_true, inOrder_iff, inOrder_iff]
  exact le_total _ _

/-- Rows on a par have one key. -/
theorem id_eq_of_inOrder {a b : Row type} (hab : inOrder a b = true) (hba : inOrder b a = true) :
    a.id = b.id := by
  have hkey : a.orderKey = b.orderKey := le_antisymm (inOrder_iff.mp hab) (inOrder_iff.mp hba)
  have hdigits : a.id.digits = b.id.digits :=
    congrArg (fun key => (ofLex (ofLex key).2).2) hkey
  cases hu : a.id
  cases hv : b.id
  rw [hu, hv] at hdigits
  congr

/-- Rows with keys of their own can be put in order in one way only. -/
theorem eq_of_perm_of_inOrder {rows some other : List (Row type)}
    (hnodup : (rows.map Row.id).Nodup) (hsome : some ⊆ rows) (hperm : some.Perm other)
    (hleft : some.Pairwise fun a b => inOrder a b = true)
    (hright : other.Pairwise fun a b => inOrder a b = true) : some = other := by
  refine hperm.eq_of_pairwise (fun a b ha hb hab hba => ?_) hleft hright
  exact List.inj_on_of_nodup_map hnodup (hsome ha) (hsome (hperm.mem_iff.mpr hb))
    (id_eq_of_inOrder hab hba)

/-- Rows with keys of their own may be picked before or after they are put in order. -/
theorem filter_mergeSort {rows : List (Row type)} (hnodup : (rows.map Row.id).Nodup)
    (test : Row type → Bool) :
    (rows.mergeSort inOrder).filter test = (rows.filter test).mergeSort inOrder := by
  refine eq_of_perm_of_inOrder hnodup (fun row hmem => ?_) ?_ ?_ ?_
  · exact List.mem_mergeSort.mp (List.mem_of_mem_filter hmem)
  · exact ((List.mergeSort_perm rows inOrder).filter test).trans
      (List.mergeSort_perm _ inOrder).symm
  · exact (List.pairwise_mergeSort inOrder_trans inOrder_total rows).filter test
  · exact List.pairwise_mergeSort inOrder_trans inOrder_total _

/-- Rows with keys of their own are put in the same order wherever they stood before. -/
theorem mergeSort_congr {rows other : List (Row type)} (hnodup : (rows.map Row.id).Nodup)
    (hperm : rows.Perm other) : rows.mergeSort inOrder = other.mergeSort inOrder := by
  refine eq_of_perm_of_inOrder hnodup (fun _ => List.mem_mergeSort.mp) ?_ ?_ ?_
  · exact (List.mergeSort_perm rows inOrder).trans
      (hperm.trans (List.mergeSort_perm other inOrder).symm)
  · exact List.pairwise_mergeSort inOrder_trans inOrder_total rows
  · exact List.pairwise_mergeSort inOrder_trans inOrder_total other

/-- Rows with keys of their own are put in strict order. -/
theorem pairwise_orderKey_mergeSort {rows : List (Row type)} (hnodup : (rows.map Row.id).Nodup) :
    (rows.mergeSort inOrder).Pairwise fun a b => a.orderKey < b.orderKey := by
  have hids : ((rows.mergeSort inOrder).map Row.id).Nodup :=
    ((List.mergeSort_perm rows inOrder).map Row.id).nodup_iff.mpr hnodup
  refine (List.pairwise_mergeSort inOrder_trans inOrder_total rows).imp₂ (fun a b hab hne => ?_)
    (List.pairwise_map.mp hids)
  refine lt_of_not_ge fun hba => hne ?_
  exact id_eq_of_inOrder hab (inOrder_iff.mpr hba)

end Tables

end ScimDirectory
