/-
  QueryClient/Proofs/Driver/Rows.lean
  ===================================
  **Every driver returns rows column by column.** Where a query has result columns, the
  body of its function returns one object literal, and the properties of this literal
  are the columns, each with its own position in the row. The statement before it, which
  makes the call, has an object of its own in some drivers, but that one is not returned.
-/
import QueryClient.Proofs.Driver.Placeholders

namespace QueryClient

open Script
open Naming (isIdentifier)

/-- The columns of a row, each with what it reads. -/
def rowReads (columns : List String) : List (String × String) :=
  columns.mapIdx fun j name => (name, "row[" ++ j.repr ++ "]")

/-! ### Object literals that are returned -/

theorem property?_read {name : String} (hname : isIdentifier name.toList = true) (i : Nat) :
    property? (Property.text ⟨name, .code ("row[" ++ i.repr ++ "]")⟩).toList =
      some (name.toList, ("row[" ++ i.repr ++ "]").toList) := by
  have hcolon : ':' ∉ name.toList := not_mem_of_isIdentifier hname (by decide) (by decide)
  have hline : (Property.text ⟨name, .code ("row[" ++ i.repr ++ "]")⟩).toList =
      name.toList ++ ':' :: ' ' :: (("row[" ++ i.repr ++ "]").toList ++ [',']) := by
    change (name ++ ": " ++ ("row[" ++ i.repr ++ "]") ++ ",").toList = _
    rw [String.toList_append, String.toList_append, String.toList_append]
    simp only [List.append_assoc]
    rfl
  rw [hline, property?_line hcolon]

theorem properties?_positionsFrom {i : Nat} {columns : List String}
    (hcolumns : ∀ name ∈ columns, isIdentifier name.toList = true) :
    properties? ((positionsFrom i columns).map fun p => .line p.text) =
      some (columns.mapIdx fun j name => (name, "row[" ++ (i + j).repr ++ "]")) := by
  induction columns generalizing i with
  | nil => rfl
  | cons name rest ih =>
    have hread := property?_read (hcolumns name List.mem_cons_self) i
    have hrest := ih (i := i + 1) fun n hn => hcolumns n (List.mem_cons_of_mem _ hn)
    have hshift : (rest.mapIdx fun j name => (name, "row[" ++ (i + 1 + j).repr ++ "]")) =
        rest.mapIdx fun j name => (name, "row[" ++ (i + (j + 1)).repr ++ "]") := by
      simp only [Nat.add_assoc, Nat.add_comm 1]
    rw [positionsFrom, List.map_cons, properties?, hread, hrest, hshift, List.mapIdx_cons]
    simp only [String.ofList_toList, Nat.add_zero]

theorem returned_positionalRow {columns : List String} (hrow : (RowShape.object columns).Named)
    {before : String} (hreturn : "return ".toList.isPrefixOf (before ++ "\x7b").toList = true)
    (after : String) :
    ((positionalRow columns).layout before after).returned = [rowReads columns] := by
  have hempty : ¬(positionalRow columns).isEmpty = true := fun h =>
    positionsFrom_ne_nil hrow.1 (List.isEmpty_iff.mp h)
  have hread : properties? ((positionalRow columns).map fun p => .line p.text) =
      some (rowReads columns) := by
    rw [positionalRow, properties?_positionsFrom hrow.2, rowReads]
    simp only [Nat.zero_add]
  rw [ObjectLiteral.layout, if_neg hempty, Layout.returned, hreturn, hread]

theorem returned_block_of_none {body : List Layout} (h : properties? body = none)
    (header : String) (close : Option String) :
    (Layout.block header body close).returned = Layout.returnedAll body := by
  rw [Layout.returned, h]
  cases "return ".toList.isPrefixOf header.toList with
  | false => rfl
  | true => rfl

theorem returnedAll_lines (object : ObjectLiteral) :
    Layout.returnedAll (object.map fun p => .line p.text) = [] := by
  induction object with
  | nil => rfl
  | cons p rest ih => rw [List.map_cons, Layout.returnedAll, ih, Layout.returned, List.nil_append]

/-- Binding a reply returns nothing, also where the call has settings. -/
theorem returned_bind (binding : String) (call : ClientCall) :
    (QueryBody.bind binding call).returned = [] := by
  rw [QueryBody.bind]
  cases call.expression with
  | inline s => rfl
  | around opening object after =>
    rw [Expression.layout, ObjectLiteral.layout]
    by_cases hempty : object.isEmpty = true
    · rw [if_pos hempty, Layout.returned]
    · have hconst : "return ".toList.isPrefixOf
          ("const " ++ binding ++ " = await " ++ opening ++ "\x7b").toList = false := by
        simp only [String.toList_append, List.append_assoc]
        rfl
      rw [if_neg hempty, Layout.returned, hconst]
      exact returnedAll_lines object

theorem returned_guard (rows : String) : (QueryBody.guard rows).returned = [] := by
  have hif : "return ".toList.isPrefixOf ("if (" ++ rows ++ ".length !== 1) \x7b").toList =
      false := by
    simp only [String.toList_append, List.append_assoc]
    rfl
  rw [QueryBody.guard, Layout.returned, hif]
  rfl

/-! ### Bodies -/

variable {columns : List String}

theorem returnedAll_first (hrow : (RowShape.object columns).Named) (call : ClientCall)
    (binding rows : String) :
    Layout.returnedAll (QueryBody.first call binding rows (.object columns)).layout =
      [rowReads columns] := by
  have hobject : ((positionalRow columns).layout "return " ";").returned = [rowReads columns] :=
    returned_positionalRow hrow rfl ";"
  rw [QueryBody.layout]
  simp only [Layout.returnedAll, returned_bind, returned_guard, Layout.returned, hobject,
    List.nil_append, List.append_nil]

theorem returnedAll_every (hrow : (RowShape.object columns).Named) (call : ClientCall)
    (binding rows : String) :
    Layout.returnedAll (QueryBody.every call binding rows (.object columns)).layout =
      [rowReads columns] := by
  have hobject : ((positionalRow columns).layout "return " ";").returned = [rowReads columns] :=
    returned_positionalRow hrow rfl ";"
  -- what is returned first is no object but the reply with a function for its rows
  have hinner : properties? [(positionalRow columns).layout "return " ";"] = none := by
    have hempty : ¬(positionalRow columns).isEmpty = true := fun h =>
      positionsFrom_ne_nil hrow.1 (List.isEmpty_iff.mp h)
    rw [ObjectLiteral.layout, if_neg hempty]
    rfl
  rw [QueryBody.layout]
  simp only [Layout.returnedAll, returned_bind, returned_block_of_none hinner, hobject,
    List.nil_append, List.append_nil]

theorem returnedAll_mapped (hrow : (RowShape.object columns).Named) (call : TextCall) :
    Layout.returnedAll (QueryBody.mapped call (.object columns)).layout = [rowReads columns] := by
  have hreturn : "return ".toList.isPrefixOf
      ("return " ++ ("(await " ++ call.text ++ ")") ++ ".map(row => (" ++ "\x7b").toList = true := by
    simp only [String.toList_append, List.append_assoc]
    rfl
  have hobject := returned_positionalRow hrow hreturn "));"
  rw [QueryBody.layout]
  simp only [Layout.returnedAll, hobject, List.append_nil]

/-! ### Functions -/

theorem QueryFunction.returnedObjects_body (f : QueryFunction) :
    returnedObjects f.function.body = Layout.returnedAll f.body.layout := by
  change Layout.returnedAll ((f.setup?.map Layout.line).toList ++ f.body.layout) = _
  cases f.setup? with
  | none => rfl
  | some setup => rfl

theorem FunctionPlan.Named.rowShape_eq {p : FunctionPlan} (hp : p.Named)
    (hrow : p.rowType?.isSome = true) :
    p.rowShape = .object p.columnNames ∧ (RowShape.object p.columnNames).Named := by
  have hshape : p.rowShape = .object p.columnNames := by
    obtain ⟨row, hrow⟩ := Option.isSome_iff_exists.mp hrow
    rw [FunctionPlan.rowShape, hrow]
  exact ⟨hshape, hshape ▸ hp.rowShape⟩

namespace Driver

variable {p : FunctionPlan}

theorem oneFunction_body (d : Driver) (p : FunctionPlan) :
    ∃ call binding rows, (d.oneFunction p).body = .first call binding rows p.rowShape := by
  cases d <;> exact ⟨_, _, _, rfl⟩

theorem manyFunction_body (d : Driver) (p : FunctionPlan) :
    (∃ call binding rows, (d.manyFunction p).body = .every call binding rows p.rowShape) ∨
      ∃ call, (d.manyFunction p).body = .mapped call p.rowShape := by
  cases d with
  | postgres => exact Or.inr ⟨_, rfl⟩
  | pg => exact Or.inl ⟨_, _, _, rfl⟩
  | mysql2 o => exact Or.inl ⟨_, _, _, rfl⟩
  | betterSqlite3 safe => exact Or.inl ⟨_, _, _, rfl⟩
  | turso => exact Or.inl ⟨_, _, _, rfl⟩

theorem returnedObjects_oneFunction (hp : p.Named) (hrow : p.rowType?.isSome = true) (d : Driver) :
    returnedObjects (d.oneFunction p).function.body = [rowReads p.columnNames] := by
  obtain ⟨hshape, hnamed⟩ := hp.rowShape_eq hrow
  obtain ⟨call, binding, rows, hbody⟩ := oneFunction_body d p
  rw [QueryFunction.returnedObjects_body, hbody, hshape]
  exact returnedAll_first hnamed call binding rows

theorem returnedObjects_manyFunction (hp : p.Named) (hrow : p.rowType?.isSome = true)
    (d : Driver) : returnedObjects (d.manyFunction p).function.body = [rowReads p.columnNames] := by
  obtain ⟨hshape, hnamed⟩ := hp.rowShape_eq hrow
  rw [QueryFunction.returnedObjects_body]
  rcases manyFunction_body d p with ⟨call, binding, rows, hbody⟩ | ⟨call, hbody⟩
  · rw [hbody, hshape]
    exact returnedAll_every hnamed call binding rows
  · rw [hbody, hshape]
    exact returnedAll_mapped hnamed call

end Driver
end QueryClient
