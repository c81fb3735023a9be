/-
  QueryClient/Proofs/Driver/ColumnType.lean
  =========================================
  **What the type of a column looks like.** Around the type that the table has for the
  name stand the array layers and then, unless the column refuses nulls, the null. That
  both can be read off the outside of the result rests on one fact about the tables: no
  entry of any of them is an array or admits null itself (`Driver.isBare_baseType`).

  The text follows by induction on the layers. Only the innermost layer can need
  parentheses, since an array as an element needs none (`TypeExpr.text_arrays`).
-/
import Mathlib.Data.List.TakeWhile
import Mathlib.Logic.Basic
import QueryClient.Driver.ColumnType

namespace QueryClient

open Script

/-! ### Layers around a type -/

namespace Script.TypeExpr

def isUnion : TypeExpr → Bool
  | .union _ => true
  | _ => false

/-- Is the outermost constructor neither an array nor `nullable`? -/
def isBare : TypeExpr → Bool
  | .nullable _ => false
  | .array _ => false
  | _ => true

theorem isCompound_of_isBare {t : TypeExpr} (h : t.isBare = true) : t.isCompound = t.isUnion := by
  cases t with
  | nullable t => cases h
  | array t => cases h
  | _ => rfl

theorem isNullable_of_isBare {t : TypeExpr} (h : t.isBare = true) : t.isNullable = false := by
  cases t with
  | nullable t => cases h
  | _ => rfl

theorem arrayDepth_of_isBare {t : TypeExpr} (h : t.isBare = true) : t.arrayDepth = 0 := by
  cases t with
  | nullable t => cases h
  | array t => cases h
  | _ => rfl

theorem isNullable_orNull (t : TypeExpr) : t.orNull.isNullable = true := by
  cases t <;> rfl

theorem arrayDepth_orNull (t : TypeExpr) : t.orNull.arrayDepth = t.arrayDepth := by
  cases t <;> rfl

theorem text_orNull {t : TypeExpr} (h : t.isNullable = false) :
    t.orNull.text = t.text ++ " | null" := by
  cases t with
  | nullable t => cases h
  | _ => rfl

theorem isNullable_arrays {t : TypeExpr} (h : t.isNullable = false) (n : Nat) :
    (arrays n t).isNullable = false := by
  cases n with
  | zero => exact h
  | succ n => rfl

theorem arrayDepth_arrays (n : Nat) (t : TypeExpr) :
    (arrays n t).arrayDepth = t.arrayDepth + n := by
  induction n with
  | zero => rfl
  | succ n ih => rw [arrays, arrayDepth, ih, Nat.add_assoc]

/-- So many pairs of brackets. -/
def brackets (n : Nat) : String := String.join (List.replicate n "[]")

theorem brackets_succ (n : Nat) : brackets (n + 1) = brackets n ++ "[]" := by
  rw [brackets, List.replicate_succ', String.join_append, String.join_cons, String.join_nil,
    String.append_empty]
  rfl

/-- The text of a type as the element of an array. -/
def elementText (t : TypeExpr) : String := if t.isCompound then "(" ++ t.text ++ ")" else t.text

theorem text_array (t : TypeExpr) : (TypeExpr.array t).text = t.elementText ++ "[]" := by
  rw [text, elementText]
  by_cases h : t.isCompound = true
  · rw [if_pos h, if_pos h, String.append_assoc, String.append_assoc, String.append_assoc]
    rfl
  · rw [if_neg h, if_neg h]

theorem text_arrays (n : Nat) (t : TypeExpr) :
    (arrays n t).text = (if 0 < n then t.elementText else t.text) ++ brackets n := by
  induction n with
  | zero => rw [if_neg (Nat.lt_irrefl 0), brackets, List.replicate_zero, String.join_nil,
      String.append_empty, arrays]
  | succ n ih =>
    have helement : (arrays n t).elementText = t.elementText ++ brackets n := by
      cases n with
      | zero => rw [brackets, List.replicate_zero, String.join_nil, String.append_empty, arrays]
      | succ n =>
        -- an array is no compound, so its text stands as it is
        have hplain : (arrays (n + 1) t).elementText = (arrays (n + 1) t).text :=
          if_neg Bool.false_ne_true
        rw [hplain, ih, if_pos n.succ_pos]
    rw [arrays, text_array, helement, if_pos n.succ_pos, brackets_succ, String.append_assoc]

end Script.TypeExpr

/-! ### Names -/

theorem Driver.afterLastDot_append (schema name : List Char) :
    afterLastDot (schema ++ '.' :: name) = afterLastDot name := by
  have hreverse : (schema ++ '.' :: name).reverse = name.reverse ++ '.' :: schema.reverse := by
    simp
  unfold afterLastDot
  rw [hreverse, List.takeWhile_append]
  split
  · rename_i hall
    rw [(List.takeWhile_prefix _).eq_of_length hall]
    simp
  · rfl

theorem Driver.afterLastDot_of_notMem {name : List Char} (h : '.' ∉ name) :
    afterLastDot name = name := by
  have hall : name.reverse.takeWhile (· ≠ '.') = name.reverse := by
    rw [List.takeWhile_eq_self_iff]
    intro c hc
    simp only [decide_eq_true_eq]
    rintro rfl
    exact h (List.mem_reverse.mp hc)
  rw [afterLastDot, hall, List.reverse_reverse]

theorem Driver.notMem_afterLastDot (name : List Char) : '.' ∉ afterLastDot name := by
  intro h
  simpa using List.mem_takeWhile_imp (List.mem_reverse.mp h)

/-! ### Tables -/

theorem TypeTable.exists_of_lookup {t : TypeTable} {name : String} {type : TypeExpr}
    (h : t.lookup name = some type) : ∃ row ∈ t, name ∈ row.1 ∧ row.2 = type := by
  obtain ⟨row, hrow, htype⟩ := Option.map_eq_some_iff.mp h
  have hname := List.find?_some hrow
  exact ⟨row, List.mem_of_find?_eq_some hrow, List.contains_iff_mem.mp hname, htype⟩

namespace Driver

/-- No table lists an array or a type that admits null. -/
theorem isBare_of_mem_types (d : Driver) : ∀ row ∈ d.types, row.2.isBare = true := by
  cases d with
  | pg => decide
  | postgres => decide
  | mysql2 o =>
    obtain ⟨supported, asStrings⟩ := o
    cases supported <;> cases asStrings <;> decide
  | betterSqlite3 safeIntegers => cases safeIntegers <;> decide
  | turso => decide

theorem isBare_fallbackType (d : Driver) : d.fallbackType.isBare = true := by
  cases d <;> rfl

theorem isBare_baseType (d : Driver) (type : String) : (d.baseType type).isBare = true := by
  rw [baseType]
  cases h : d.types.lookup (d.normalize type) with
  | none => exact isBare_fallbackType d
  | some t =>
    obtain ⟨row, hrow, -, rfl⟩ := TypeTable.exists_of_lookup h
    exact isBare_of_mem_types d row hrow

/-! ### Columns -/

/-- The type of a column whose SQL type is known. -/
theorem columnType_eq {c : Column} {type : String} (h : c.type? = some type) (d : Driver) :
    d.columnType (some c) =
      if c.notNull then TypeExpr.arrays (arrayLayers c) (d.baseType type)
      else (TypeExpr.arrays (arrayLayers c) (d.baseType type)).orNull := by
  simp only [columnType, h]

/-- **The type of a column.** A column of unknown type may hold anything. Otherwise the
    table, or the fallback of the driver, has a type for the name; the layers of an array
    stand around it, and null is added exactly if the column may be null. In the text a
    union is put in parentheses where brackets follow. -/
theorem columnType_layers_null (d : Driver) (column? : Option Column) :
    (column?.bind (·.type?) = none → d.columnType column? = .any) ∧
      ∀ c type, column? = some c → c.type? = some type →
        let base := (d.types.lookup (d.normalize type)).getD d.fallbackType
        let layers := if c.isArray = true ∨ 0 < c.arrayDims then max c.arrayDims.toNat 1 else 0
        (d.columnType column?).isNullable = !c.notNull ∧
        (d.columnType column?).arrayDepth = layers ∧
        (d.columnType column?).text =
          (if 0 < layers ∧ base.isUnion = true then "(" ++ base.text ++ ")" else base.text) ++
            String.join (List.replicate layers "[]") ++ (if c.notNull then "" else " | null") := by
  constructor
  · intro hunknown
    cases column? with
    | none => rfl
    | some c =>
      have htype : c.type? = none := hunknown
      simp only [columnType, htype]
  · rintro c type rfl htype base layers
    have hbare : base.isBare = true := isBare_baseType d type
    have hnullable : (TypeExpr.arrays layers base).isNullable = false :=
      TypeExpr.isNullable_arrays (TypeExpr.isNullable_of_isBare hbare) layers
    have hdepth : (TypeExpr.arrays layers base).arrayDepth = layers := by
      rw [TypeExpr.arrayDepth_arrays, TypeExpr.arrayDepth_of_isBare hbare, Nat.zero_add]
    have htext : (TypeExpr.arrays layers base).text =
        (if 0 < layers ∧ base.isUnion = true then "(" ++ base.text ++ ")" else base.text) ++
          String.join (List.replicate layers "[]") := by
      rw [TypeExpr.text_arrays, TypeExpr.elementText, TypeExpr.isCompound_of_isBare hbare, ite_and]
      rfl
    have hcolumn : d.columnType (some c) = if c.notNull then TypeExpr.arrays layers base
        else (TypeExpr.arrays layers base).orNull := columnType_eq htype d
    rw [hcolumn]
    cases c.notNull with
    | true =>
      refine ⟨hnullable, hdepth, ?_⟩
      exact htext.trans (String.append_empty).symm
    | false =>
      refine ⟨TypeExpr.isNullable_orNull _, ?_, ?_⟩
      · exact (TypeExpr.arrayDepth_orNull _).trans hdepth
      · exact (TypeExpr.text_orNull hnullable).trans (congrArg (· ++ " | null") htext)

example : ((Driver.mysql2 ⟨true, false⟩).columnType (some
    ((Column.ofType "n" "BIGINT").withArray 2))).text = "(number | string)[][] | null" := by
  cbv

end Driver
end QueryClient
