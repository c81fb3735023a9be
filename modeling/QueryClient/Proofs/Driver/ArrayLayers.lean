/-
  QueryClient/Proofs/Driver/ArrayLayers.lean
  ==========================================
  **Array layers and array depth.** The layers of a type are the arrays that follow one
  another once the nulls around the type are taken off: `layers`, and `element` for what
  stands inside of them. The depth of a type looks through every null on its way, also
  behind an array. So it counts the layers of the type and the depth of the element
  (`TypeExpr.arrayDepth_eq`), which is too many where the element admits null and is an
  array underneath.

  No column has such a type: what the layers of a column stand around is neither an array
  nor a type that admits null (`Driver.isBare_baseType`).
-/
import QueryClient.Proofs.Driver.ColumnType

namespace QueryClient

open Script

namespace Script.TypeExpr

/-! ### Taking a type apart -/

/-- The type without the nulls around it. -/
def withoutNull : TypeExpr → TypeExpr
  | .nullable t => t.withoutNull
  | t => t

/-- The number of arrays that follow one another from the outside. -/
def arraysAround : TypeExpr → Nat
  | .array t => t.arraysAround + 1
  | _ => 0

/-- What stands inside of these arrays. -/
def withoutArrays : TypeExpr → TypeExpr
  | .array t => t.withoutArrays
  | t => t

/-- The array layers of a type, directly below the nulls around it. -/
def layers (t : TypeExpr) : Nat := t.withoutNull.arraysAround

/-- The type that the array layers stand around. -/
def element (t : TypeExpr) : TypeExpr := t.withoutNull.withoutArrays

def isArray : TypeExpr → Bool
  | .array _ => true
  | _ => false

/-! ### Layers and depth -/

/-- The arrays and what stands inside of them are the type. -/
theorem arrays_withoutArrays (t : TypeExpr) : arrays t.arraysAround t.withoutArrays = t := by
  fun_induction arraysAround t with
  | case1 t ih => rw [withoutArrays, arrays, ih]
  | case2 t hother =>
    cases t with
    | array t => exact absurd rfl (hother t)
    | _ => rfl

/-- Nulls around a type do not count. -/
theorem arrayDepth_withoutNull (t : TypeExpr) : t.withoutNull.arrayDepth = t.arrayDepth := by
  fun_induction withoutNull t with
  | case1 t ih => rw [arrayDepth, ih]
  | case2 t hother => rfl

/-- The depth counts the layers, and goes on in the element. -/
theorem arrayDepth_eq (t : TypeExpr) : t.arrayDepth = t.layers + t.element.arrayDepth := by
  calc t.arrayDepth = t.withoutNull.arrayDepth := (arrayDepth_withoutNull t).symm
    _ = (arrays t.layers t.element).arrayDepth := by rw [layers, element, arrays_withoutArrays]
    _ = t.element.arrayDepth + t.layers := arrayDepth_arrays _ _
    _ = t.layers + t.element.arrayDepth := Nat.add_comm _ _

theorem arrayDepth_eq_zero_iff (t : TypeExpr) :
    t.arrayDepth = 0 ↔ t.withoutNull.isArray = false := by
  fun_induction withoutNull t with
  | case1 t ih => rw [arrayDepth, ih]
  | case2 t hother =>
    cases t with
    | nullable t => exact absurd rfl (hother t)
    | array t => exact iff_of_false (Nat.succ_ne_zero _) Bool.false_ne_true.symm
    | _ => exact iff_of_true rfl rfl

/-! ### Types of columns -/

theorem element_orNull (t : TypeExpr) : t.orNull.element = t.element := by
  cases t <;> rfl

theorem withoutNull_of_isBare {t : TypeExpr} (h : t.isBare = true) : t.withoutNull = t := by
  cases t with
  | nullable t => cases h
  | _ => rfl

theorem element_arrays {t : TypeExpr} (h : t.isBare = true) (n : Nat) :
    (arrays n t).element = t := by
  have hinside : (arrays n t).withoutArrays = t := by
    induction n with
    | zero =>
      cases t with
      | array t => cases h
      | _ => rfl
    | succ n ih => rw [arrays, withoutArrays, ih]
  cases n with
  | zero =>
    rw [element, arrays, withoutNull_of_isBare h]
    exact hinside
  | succ n => exact hinside

end Script.TypeExpr

/-- The layers of a column stand around what the table has for its type. -/
theorem Driver.isBare_element_columnType (d : Driver) (column? : Option Column) :
    (d.columnType column?).element.isBare = true := by
  cases column? with
  | none => rfl
  | some c =>
    cases htype : c.type? with
    | none =>
      rw [columnType, htype]
      rfl
    | some type =>
      have hbare := isBare_baseType d type
      rw [columnType_eq htype]
      cases c.notNull with
      | true =>
        rw [if_pos rfl, TypeExpr.element_arrays hbare]
        exact hbare
      | false =>
        rw [if_neg Bool.false_ne_true, TypeExpr.element_orNull, TypeExpr.element_arrays hbare]
        exact hbare

/-- **Depth and layers.** The array depth of a type is the number of its layers, the arrays
    that follow one another below the nulls around it, and on top of them the depth of their
    element. So it counts the layers exactly unless the element admits null and is an array
    underneath. It counts them exactly for the type that any driver gives to any column. -/
theorem Script.TypeExpr.arrayDepth_layers (t : TypeExpr) :
    t.arrayDepth = t.layers + t.element.arrayDepth ∧
      (t.arrayDepth = t.layers ↔ t.element.withoutNull.isArray = false) ∧
      ∀ (d : Driver) (column? : Option Column),
        (d.columnType column?).arrayDepth = (d.columnType column?).layers := by
  have hexact (t : TypeExpr) : t.arrayDepth = t.layers ↔ t.element.arrayDepth = 0 := by
    rw [arrayDepth_eq]
    omega
  refine ⟨arrayDepth_eq t, (hexact t).trans (arrayDepth_eq_zero_iff _), ?_⟩
  intro d column?
  rw [hexact]
  exact arrayDepth_of_isBare (Driver.isBare_element_columnType d column?)

/-- An array inside of an element that admits null is counted, but is no layer. -/
theorem Script.TypeExpr.arrayDepth_behind_null :
    let t : TypeExpr := .array (.nullable (.array .number))
    t.layers = 1 ∧ t.element = .nullable (.array .number) ∧ t.arrayDepth = 2 :=
  ⟨rfl, rfl, rfl⟩

end QueryClient
