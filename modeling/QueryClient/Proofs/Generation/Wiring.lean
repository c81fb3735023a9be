/-
  QueryClient/Proofs/Generation/Wiring.lean
  =========================================
  **Placeholders and columns are wired straight through.** A query's placeholders get
  one list of names and its result columns another. The interfaces, the parameters of
  the function, the values that it binds and the row that it returns all go back to these
  two lists, in the same order, for every driver and command (`Query.declarations_wired`).

  The function is read as text, by the readers that know no driver; what they rely on is
  that the names in a plan are identifiers (`Query.named_plan`).
-/
import QueryClient.Generation
import QueryClient.Proofs.Driver.Rows
import QueryClient.Proofs.Generation.Outcome
import QueryClient.Proofs.Naming.Supply

namespace QueryClient

open Script
open Naming (isIdentifier)

/-! ### The plan of a query -/

namespace Query

theorem length_argFields (q : Query) : q.argFields.length = q.params.length := by
  rw [argFields, Naming.length_fieldNames, List.length_map]

theorem length_rowFields (q : Query) : q.rowFields.length = q.columns.length := by
  rw [rowFields, Naming.length_fieldNames, List.length_map]

theorem isIdentifier_constantName (q : Query) : isIdentifier q.constantName.toList = true := by
  rw [constantName, String.toList_append]
  exact Naming.isIdentifier_append (Naming.isIdentifier_functionName q.name) (by decide)

theorem isSome_rowType?_iff {q : Query} : q.plan.rowType?.isSome = true ↔ q.columns ≠ [] := by
  change (if q.columns.isEmpty then none else some q.rowName).isSome = true ↔ _
  cases q.columns with
  | nil => simp
  | cons c cs => simp

/-- Whatever the query and its columns are called, its plan has proper names. -/
theorem named_plan (q : Query) : q.plan.Named where
  queryConstant := isIdentifier_constantName q
  argNames _ h := Naming.isIdentifier_of_mem_fieldNames (by decide) h
  columnNames _ h := Naming.isIdentifier_of_mem_fieldNames (by decide) h
  columns h := by
    intro hnil
    have hlength := length_rowFields q
    change q.rowFields = [] at hnil
    rw [hnil] at hlength
    exact isSome_rowType?_iff.mp h (List.length_eq_zero_iff.mp hlength.symm)

end Query

/-! ### Interfaces -/

/-- An exported interface, with the type of each field. -/
def interfaceOf (name : String) (fields : List (String × String)) : Layout :=
  .block ("export interface " ++ name ++ " \x7b")
    (fields.map fun (field, type) => .line (field ++ ": " ++ type ++ ";")) (some "\x7d")

theorem layout_interface {α : Type} {fields : List String} {items : List α}
    (hlength : fields.length = items.length) (name : String) (type : α → TypeExpr) :
    (if items.isEmpty then none
      else some (Interface.mk name
        (List.zipWith (fun field a => Field.required field (type a)) fields items)
          true)).map Interface.layout =
      if items = [] then none
      else some (interfaceOf name (fields.zip (items.map fun a => (type a).text))) := by
  by_cases hnil : items = []
  · rw [if_pos (List.isEmpty_iff.mpr hnil), if_pos hnil]
    rfl
  · have hempty :
        ¬(List.zipWith (fun field a => Field.required field (type a)) fields items).isEmpty =
          true := by
      intro h
      rcases List.zipWith_eq_nil_iff.mp (List.isEmpty_iff.mp h) with hfields | hitems
      · rw [hfields] at hlength
        exact hnil (List.length_eq_zero_iff.mp hlength.symm)
      · exact hnil hitems
    have htext (field : String) (t : TypeExpr) :
        (Field.required field t).text = field ++ ": " ++ t.text := by
      change field ++ "" ++ ": " ++ t.text = _
      rw [String.append_empty]
    rw [if_neg fun h => hnil (List.isEmpty_iff.mp h), if_neg hnil, Option.map_some,
      Interface.layout, if_neg hempty, interfaceOf, List.zip_map_right, List.map_zipWith,
      List.map_map, List.zip, List.map_zipWith]
    simp only [htext, Function.comp_def, Prod.map, id]
    rfl

namespace Query

theorem layout_argsInterface? (d : Driver) (q : Query) :
    (q.argsInterface? d).map Interface.layout =
      if q.params = [] then none
      else some (interfaceOf q.argsName
        (q.argFields.zip (q.params.map fun p => (d.columnType p.column?).text))) :=
  layout_interface (length_argFields q) q.argsName fun p => d.columnType p.column?

theorem layout_rowInterface? (d : Driver) (q : Query) :
    (q.rowInterface? d).map Interface.layout =
      if q.columns = [] then none
      else some (interfaceOf q.rowName
        (q.rowFields.zip (q.columns.map fun c => (d.columnType (some c)).text))) :=
  layout_interface (length_rowFields q) q.rowName fun c => d.columnType (some c)

end Query

/-! ### Functions -/

namespace Driver

variable {d : Driver} {c : Command} {p : FunctionPlan} {f : QueryFunction}

theorem queryFunction_eq_wrap (h : d.queryFunction c p = .ok f) :
    ∃ returns setup? body, f = d.wrap p returns setup? body := by
  cases c with
  | exec =>
    cases h
    cases d <;> exact ⟨_, _, _, rfl⟩
  | execLastId =>
    cases d <;> cases h
    · exact ⟨_, _, _, rfl⟩
    · exact ⟨_, _, _, rfl⟩
  | one =>
    cases h
    cases d <;> exact ⟨_, _, _, rfl⟩
  | many =>
    cases h
    cases d <;> exact ⟨_, _, _, rfl⟩

theorem oneFunction_returns (d : Driver) (p : FunctionPlan) :
    (d.oneFunction p).returns = p.rowType.orNull := by
  cases d <;> rfl

theorem manyFunction_returns (d : Driver) (p : FunctionPlan) :
    (d.manyFunction p).returns = .array p.rowType := by
  cases d <;> rfl

end Driver

theorem Script.TypeExpr.text_promise (t : TypeExpr) :
    (TypeExpr.generic "Promise" [t]).text = "Promise<" ++ t.text ++ ">" := by
  rw [TypeExpr.text, TypeExpr.texts, TypeExpr.texts, String.intercalate_singleton]
  rfl

namespace Query

theorem plan_rowType {q : Query} (h : q.columns ≠ []) : q.plan.rowType = .named q.rowName := by
  have hrow : q.plan.rowType? = some q.rowName := if_neg fun hnil => h (List.isEmpty_iff.mp hnil)
  rw [FunctionPlan.rowType, hrow]

theorem text_one {q : Query} (h : q.columns ≠ []) (d : Driver) :
    (d.oneFunction q.plan).function.returns?.map TypeExpr.text =
      some ("Promise<" ++ q.rowName ++ " | null>") := by
  change some (TypeExpr.generic "Promise" [(d.oneFunction q.plan).returns]).text = _
  rw [TypeExpr.text_promise, Driver.oneFunction_returns, plan_rowType h]
  change some ("Promise<" ++ (q.rowName ++ " | null") ++ ">") = _
  rw [← String.append_assoc, String.append_assoc]
  rfl

theorem text_many {q : Query} (h : q.columns ≠ []) (d : Driver) :
    (d.manyFunction q.plan).function.returns?.map TypeExpr.text =
      some ("Promise<" ++ q.rowName ++ "[]>") := by
  change some (TypeExpr.generic "Promise" [(d.manyFunction q.plan).returns]).text = _
  rw [TypeExpr.text_promise, Driver.manyFunction_returns, plan_rowType h]
  change some ("Promise<" ++ (q.rowName ++ "[]") ++ ">") = _
  rw [← String.append_assoc, String.append_assoc]
  rfl

end Query

/-! ### Declarations -/

/-- The interfaces among declarations. -/
def interfaces (decls : List Declaration) : List Interface :=
  decls.filterMap fun
    | .interface i => some i
    | _ => none

/-- The functions among declarations. -/
def functions (decls : List Declaration) : List Function :=
  decls.filterMap fun
    | .function f => some f
    | _ => none

theorem interfaces_toList (ds : QueryDeclarations) :
    (interfaces ds.toList).map Interface.layout =
      (ds.args?.map Interface.layout).toList ++ (ds.row?.map Interface.layout).toList := by
  obtain ⟨constant, args?, row?, function⟩ := ds
  cases args? with
  | none => cases row? <;> rfl
  | some args => cases row? <;> rfl

theorem functions_toList (ds : QueryDeclarations) :
    functions ds.toList = [ds.function.function] := by
  obtain ⟨constant, args?, row?, function⟩ := ds
  cases args? with
  | none => cases row? <;> rfl
  | some args => cases row? <;> rfl

/-- Declarations that wire the placeholders and the columns of a query through, `f`
    being the one function among them. -/
structure Wired (d : Driver) (q : Query) (decls : List Declaration) (f : Function) : Prop where
  function : functions decls = [f]
  argCount : q.argFields.length = q.params.length
  columnCount : q.rowFields.length = q.columns.length
  /-- An interface for the arguments if there are any, and one for a row if it has columns. -/
  interfaces : (interfaces decls).map Interface.layout =
    (if q.params = [] then [] else [interfaceOf q.argsName
      (q.argFields.zip (q.params.map fun p => (d.columnType p.column?).text))]) ++
    (if q.columns = [] then [] else [interfaceOf q.rowName
      (q.rowFields.zip (q.columns.map fun c => (d.columnType (some c)).text))])
  /-- The arguments are one parameter behind the connection. -/
  params : f.params.map Field.text =
    d.connection.text :: if q.params = [] then [] else ["args: " ++ q.argsName]
  /-- All arguments are bound, in the order of the placeholders, and nothing else is. -/
  bound : boundLists f.body = [(d.bindingSite q.command, q.argFields.map ("args." ++ ·))]
  /-- A row is returned column by column. -/
  row : q.columns ≠ [] → q.command = .one ∨ q.command = .many →
    returnedObjects f.body = [q.rowFields.mapIdx fun j name => (name, "row[" ++ j.repr ++ "]")]
  one : q.columns ≠ [] → q.command = .one →
    f.returns?.map TypeExpr.text = some ("Promise<" ++ q.rowName ++ " | null>")
  many : q.columns ≠ [] → q.command = .many →
    f.returns?.map TypeExpr.text = some ("Promise<" ++ q.rowName ++ "[]>")

namespace Query

theorem map_text_params {d : Driver} {q : Query} {f : QueryFunction}
    (h : d.queryFunction q.command q.plan = .ok f) :
    f.function.params.map Field.text =
      d.connection.text :: if q.params = [] then [] else ["args: " ++ q.argsName] := by
  obtain ⟨returns, setup?, body, rfl⟩ := Driver.queryFunction_eq_wrap h
  change ((d.connection :: (Option.map (fun t => Field.required "args" (.named t))
    (if q.params.isEmpty then none else some q.argsName)).toList)).map Field.text = _
  cases q.params with
  | nil => rfl
  | cons p ps => rfl

/-- **Placeholders and columns are wired straight through.** Every query whose command the
    driver supports gets declarations in which the names of the placeholders and those of
    the columns, each list in its order, make up the interfaces, the values bound in the
    call and the row returned. A query for one row may yield null, and a query for many
    rows yields an array. -/
theorem declarations_wired {d : Driver} {q : Query} (h : d.Supports q.command) :
    ∃ ds f, q.declarations d = .ok ds ∧ Wired d q ds.toList f := by
  obtain ⟨f, hf⟩ := Driver.exists_queryFunction h q.plan
  refine ⟨_, f.function, declarations_eq_ok_iff.mpr ⟨f, hf, rfl⟩, ?_⟩
  refine ⟨functions_toList _, length_argFields q, length_rowFields q, ?interfaces,
    map_text_params hf, ?bound, ?row, ?one, ?many⟩
  case interfaces =>
    rw [interfaces_toList, layout_argsInterface?, layout_rowInterface?]
    cases q.params with
    | nil => cases q.columns <;> rfl
    | cons p ps => cases q.columns <;> rfl
  case bound => exact Driver.boundLists_queryFunction (named_plan q) hf
  case row =>
    intro hcolumns hcommand
    have hrow := isSome_rowType?_iff.mpr hcolumns
    rcases hcommand with hone | hmany
    · rw [hone] at hf
      cases hf
      exact Driver.returnedObjects_oneFunction (named_plan q) hrow d
    · rw [hmany] at hf
      cases hf
      exact Driver.returnedObjects_manyFunction (named_plan q) hrow d
  case one =>
    intro hcolumns hone
    rw [hone] at hf
    cases hf
    exact text_one hcolumns d
  case many =>
    intro hcolumns hmany
    rw [hmany] at hf
    cases hf
    exact text_many hcolumns d

/-- A query with nameless and repeated columns, for a driver that prepares statements. -/
theorem declarations_wired_nameless :
    let q := ((Query.plain "ListNames" .many "SELECT ?, name, name FROM t" "q.sql").addParam
      .unknown).addColumn .unknown |>.addColumn (.ofType "name" "text") |>.addColumn
        (.ofType "name" "text")
    (Driver.betterSqlite3 true).Supports q.command ∧
      ∃ ds f, q.declarations (.betterSqlite3 true) = .ok ds ∧
        Wired (.betterSqlite3 true) q ds.toList f := by
  intro q
  have hsupported : (Driver.betterSqlite3 true).Supports q.command := by decide
  exact ⟨hsupported, declarations_wired hsupported⟩

/-- Not every query for rows may yield null instead: one for many rows yields an array. -/
theorem declarations_many_never_null :
    ¬∀ (d : Driver) (q : Query), d.Supports q.command → q.columns ≠ [] →
      q.command = .one ∨ q.command = .many →
        ∃ ds, q.declarations d = .ok ds ∧
          ds.function.function.returns?.map TypeExpr.text =
            some ("Promise<" ++ q.rowName ++ " | null>") := by
  intro hall
  let q := (Query.plain "ListIds" .many "SELECT id FROM t" "q.sql").addColumn (.ofType "id" "int8")
  obtain ⟨ds, hds, htext⟩ := hall .pg q (by decide) (by decide) (Or.inr rfl)
  cases hds
  have hmany := text_many (q := q) (by decide) .pg
  have hsame := Option.some.inj (htext.symm.trans hmany)
  have hlist := congrArg String.toList hsame
  simp only [String.toList_append, List.append_assoc] at hlist
  have hend := List.append_cancel_left (List.append_cancel_left hlist)
  revert hend
  decide

end Query
end QueryClient
