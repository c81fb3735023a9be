/-
  QueryClient/Proofs/Generation/Imports.lean
  ==========================================
  **A file imports what it uses.** The preamble of a file is chosen from the queries
  before any of their declarations is made; what it has to provide shows in these
  declarations only. That both agree is said type by type:

  * `IPostgresInterval` is imported exactly if the type of a field refers to it. The
    preamble looks for a column whose type is called `interval`, and the table of the
    driver leads there from no other name (`Driver.mem_references_pg_baseType_iff`);
  * `ResultSetHeader` is imported exactly if a function refers to it, which those do that
    tell an inserted id (`Query.header_mem_references_iff`);
  * the type of the connection is imported or declared once, and no declaration of a
    query takes its name, since functions and constants start with a small letter and
    interfaces end differently (`Query.not_mem_declaredNames`).
-/
import QueryClient.Proofs.Generation.TopLevelNames

namespace QueryClient

open Script Naming

/-! ### References to types -/

namespace Script.TypeExpr

mutual

/-- The types that a type expression refers to by name. -/
def references : TypeExpr → List String
  | .primitive _ => []
  | .nullable t => t.references
  | .array t => t.references
  | .named name => [name]
  | .generic base args => base :: referencesAll args
  | .object fields => referencesFields fields
  | .union ts => referencesAll ts
  | .unit => []

def referencesAll : List TypeExpr → List String
  | [] => []
  | t :: ts => t.references ++ referencesAll ts

def referencesFields : List (String × TypeExpr) → List String
  | [] => []
  | (_, t) :: fs => t.references ++ referencesFields fs

end

theorem references_orNull (t : TypeExpr) : t.orNull.references = t.references := by
  cases t <;> rfl

theorem references_arrays (n : Nat) (t : TypeExpr) :
    (arrays n t).references = t.references := by
  induction n with
  | zero => rfl
  | succ n ih => exact ih

end Script.TypeExpr

/-- The types that a function refers to: those of its parameters and of its result, and
    the one that the library is told to hand back. -/
def QueryFunction.references (f : QueryFunction) : List String :=
  (f.params.map (·.type) ++ f.returns :: f.body.call.yields.toList).flatMap TypeExpr.references

/-- The interfaces made for a query. -/
def QueryDeclarations.interfaces (ds : QueryDeclarations) : List Interface :=
  ds.args?.toList ++ ds.row?.toList

namespace Script.Declaration

/-- The names that a declaration makes known at the top of its file. -/
def declaredNames : Declaration → List String
  | .imported i => i.default?.toList ++ i.names
  | .typeAlias a => [a.name]
  | .interface i => [i.name]
  | .constant c => [c.name]
  | .function f => [f.name]

/-- The names that a declaration imports. -/
def importedNames : Declaration → List String
  | .imported i => i.default?.toList ++ i.names
  | _ => []

end Script.Declaration

/-! ### Types of columns -/

namespace Driver

theorem references_columnType {c : Column} {type : String} (h : c.type? = some type)
    (d : Driver) : (d.columnType (some c)).references = (d.baseType type).references := by
  rw [columnType_eq h]
  cases c.notNull with
  | true =>
    rw [if_pos rfl]
    exact TypeExpr.references_arrays _ _
  | false =>
    rw [if_neg Bool.false_ne_true, TypeExpr.references_orNull]
    exact TypeExpr.references_arrays _ _

theorem mem_references_pg_baseType_iff (type : String) :
    "IPostgresInterval" ∈ (Driver.pg.baseType type).references ↔
      Driver.pg.normalize type = "interval" := by
  constructor
  · intro hmem
    have hrows : ∀ row ∈ Driver.pg.types, "IPostgresInterval" ∈ row.2.references →
        row.1 = ["interval"] := by
      decide
    rw [baseType] at hmem
    cases hlookup : Driver.pg.types.lookup (Driver.pg.normalize type) with
    | none =>
      rw [hlookup] at hmem
      cases hmem
    | some t =>
      rw [hlookup] at hmem
      obtain ⟨row, hrow, hname, rfl⟩ := TypeTable.exists_of_lookup hlookup
      rw [hrows row hrow hmem] at hname
      exact List.mem_singleton.mp hname
  · intro hname
    rw [baseType, hname]
    decide

theorem mem_references_pg_columnType_iff (column? : Option Column) :
    "IPostgresInterval" ∈ (Driver.pg.columnType column?).references ↔
      ∃ c ∈ column?, ∃ type ∈ c.type?, Driver.pg.normalize type = "interval" := by
  cases column? with
  | none => simp [columnType, TypeExpr.any, TypeExpr.references]
  | some c =>
    cases htype : c.type? with
    | none => simp [columnType, htype, TypeExpr.any, TypeExpr.references]
    | some type =>
      rw [references_columnType htype, mem_references_pg_baseType_iff]
      simp [htype]

end Driver

/-! ### Fields of interfaces -/

theorem map_type_zipWith {α : Type} (type : α → TypeExpr) {fields : List String}
    {items : List α} (h : fields.length = items.length) :
    (List.zipWith (fun field a => Field.required field (type a)) fields items).map (·.type) =
      items.map type := by
  rw [List.map_zipWith]
  induction fields generalizing items with
  | nil =>
    rw [List.length_eq_zero_iff.mp h.symm]
    rfl
  | cons field fields ih =>
    cases items with
    | nil => cases h
    | cons a items =>
      rw [List.zipWith_cons_cons, List.map_cons, ih (Nat.succ.inj h)]
      rfl

/-- The fields of an interface that is there if it has any. -/
theorem exists_field_iff {α : Type} {fields : List String} {items : List α}
    (hlength : fields.length = items.length) (name referred : String) (type : α → TypeExpr) :
    (∃ i ∈ (if items.isEmpty then none
        else some (Interface.mk name
          (List.zipWith (fun field a => Field.required field (type a)) fields items) true)),
      ∃ f ∈ i.fields, referred ∈ f.type.references) ↔
      ∃ a ∈ items, referred ∈ (type a).references := by
  have hfields : (∃ f ∈ List.zipWith (fun field a => Field.required field (type a)) fields items,
      referred ∈ f.type.references) ↔ ∃ a ∈ items, referred ∈ (type a).references := by
    have hmap := map_type_zipWith type hlength
    constructor
    · rintro ⟨f, hf, hmem⟩
      have htype : f.type ∈ items.map type := hmap ▸ List.mem_map_of_mem hf
      obtain ⟨a, ha, heq⟩ := List.mem_map.mp htype
      exact ⟨a, ha, heq ▸ hmem⟩
    · rintro ⟨a, ha, hmem⟩
      have htype : type a ∈ (List.zipWith (fun field a => Field.required field (type a)) fields
          items).map (·.type) := hmap ▸ List.mem_map_of_mem ha
      obtain ⟨f, hf, heq⟩ := List.mem_map.mp htype
      exact ⟨f, hf, heq ▸ hmem⟩
  cases items with
  | nil => simp
  | cons a items => simpa using hfields

namespace Query

variable {d : Driver} {q : Query} {ds : QueryDeclarations} {f : QueryFunction}

/-- The types of the fields are those of the columns, of placeholders and of results. -/
theorem exists_field_references_iff (h : q.declarations d = .ok ds) (referred : String) :
    (∃ i ∈ ds.interfaces, ∃ f ∈ i.fields, referred ∈ f.type.references) ↔
      (∃ p ∈ q.params, referred ∈ (d.columnType p.column?).references) ∨
        ∃ c ∈ q.columns, referred ∈ (d.columnType (some c)).references := by
  obtain ⟨f, -, rfl⟩ := declarations_eq_ok_iff.mp h
  have hargs := exists_field_iff (length_argFields q) q.argsName referred
    fun p => d.columnType p.column?
  have hrow := exists_field_iff (length_rowFields q) q.rowName referred
    fun c => d.columnType (some c)
  rw [← hargs, ← hrow]
  simp only [QueryDeclarations.interfaces, List.mem_append, Option.mem_toList, or_and_right,
    exists_or]
  rfl

/-! ### Functions -/

theorem ne_argsName {name : String} (h : name.toList.getLast? ≠ some 's') (q : Query) :
    name ≠ q.argsName := by
  apply ne_of_getLast?_ne
  simpa [argsName] using h

theorem ne_rowName {name : String} (h : name.toList.getLast? ≠ some 'w') (q : Query) :
    name ≠ q.rowName := by
  apply ne_of_getLast?_ne
  simpa [rowName] using h

/-- The interface of the arguments apart, a function refers to the type of the connection, to
    what its result is made of, and to what its call yields. -/
theorem mem_references_iff {name : String} (h : d.queryFunction q.command q.plan = .ok f)
    (hargs : name ≠ q.argsName) :
    name ∈ f.references ↔ name ∈ d.connection.type.references ∨
      name ∈ f.returns.references ∨ ∃ t ∈ f.body.call.yields, name ∈ t.references := by
  obtain ⟨returns, setup?, body, rfl⟩ := Driver.queryFunction_eq_wrap h
  have hnotArgs : ∀ t ∈ ((q.plan.argsType?.map fun t => Field.required "args" (.named t)).toList.map
      (·.type)), name ∉ t.references := by
    change ∀ t ∈ (((if q.params.isEmpty then none else some q.argsName).map fun t =>
      Field.required "args" (.named t)).toList.map (·.type)), _
    cases q.params with
    | nil => simp
    | cons p ps => simpa [Field.required, TypeExpr.references] using hargs
  simp only [QueryFunction.references, QueryFunction.params, Driver.wrap, List.mem_flatMap,
    List.map_cons, List.cons_append, List.mem_cons, List.mem_append, Option.mem_toList]
  constructor
  · rintro ⟨t, rfl | ht | rfl | ht, hname⟩
    · exact Or.inl hname
    · exact absurd hname (hnotArgs t ht)
    · exact Or.inr (Or.inl hname)
    · exact Or.inr (Or.inr ⟨t, ht, hname⟩)
  · rintro (hname | hname | ⟨t, ht, hname⟩)
    · exact ⟨_, Or.inl rfl, hname⟩
    · exact ⟨_, Or.inr (Or.inr (Or.inl rfl)), hname⟩
    · exact ⟨t, Or.inr (Or.inr (Or.inr ht)), hname⟩

theorem not_mem_references_rowType {name : String} (h : name ≠ q.rowName) :
    name ∉ q.plan.rowType.references := by
  by_cases hcolumns : q.columns = []
  · have hrow : q.plan.rowType = .unit := by
      simp [FunctionPlan.rowType, plan, hcolumns]
    rw [hrow]
    exact List.not_mem_nil
  · rw [plan_rowType hcolumns]
    exact fun hmem => h (List.mem_singleton.mp hmem)

theorem header_mem_references_iff {o : BigNumbers}
    (h : (Driver.mysql2 o).queryFunction q.command q.plan = .ok f) :
    "ResultSetHeader" ∈ f.references ↔ q.command = .execLastId := by
  have hrow : "ResultSetHeader" ∉ q.plan.rowType.references :=
    not_mem_references_rowType (ne_rowName (by decide) q)
  have hconnection :
      "ResultSetHeader" ∉ (Driver.mysql2 o).connection.type.references := by
    change "ResultSetHeader" ∉ ["Client"]
    decide
  have hrows : "ResultSetHeader" ∉ Driver.rowPackets.references := by decide
  rw [mem_references_iff h (ne_argsName (by decide) q)]
  -- the body is known only when the command is
  cases hcommand : q.command with
  | exec =>
    rw [hcommand] at h
    cases h
    simp [hconnection, Driver.execFunction, Driver.wrap, TypeExpr.references, QueryBody.call,
      Driver.mysqlCall, ClientCall.yields]
  | execLastId =>
    rw [hcommand] at h
    cases h
    simp [Driver.wrap, QueryBody.call, Driver.mysqlCall, ClientCall.yields, Driver.resultHeader,
      TypeExpr.references]
  | one =>
    rw [hcommand] at h
    cases h
    simp [hconnection, hrow, hrows, Driver.oneFunction, Driver.wrap, TypeExpr.references_orNull,
      QueryBody.call, Driver.mysqlRows, Driver.mysqlCall, ClientCall.yields]
  | many =>
    rw [hcommand] at h
    cases h
    simp [hconnection, hrow, hrows, Driver.manyFunction, Driver.wrap, TypeExpr.references,
      QueryBody.call, Driver.mysqlRows, Driver.mysqlCall, ClientCall.yields]

/-! ### Declared names -/

/-- What is named in capitals, and not like an interface of a query, no declaration of a
    query takes for itself. -/
theorem not_mem_declaredNames {name : String} (h : q.declarations d = .ok ds)
    (hcapital : isCapitalized name = true) (hargs : name ≠ q.argsName)
    (hrow : name ≠ q.rowName) :
    ∀ decl ∈ ds.toList, name ∉ decl.declaredNames := by
  refine forall_declarations (P := fun decl => name ∉ decl.declaredNames) h ?constant ?args ?row
    ?function
  case constant =>
    intro hmem
    exact functionName_append_ne hcapital q.name "Query" (List.mem_singleton.mp hmem).symm
  case args =>
    intro i hi hmem
    rw [argsInterface?] at hi
    split at hi
    · cases hi
    · cases hi
      exact hargs (List.mem_singleton.mp hmem)
  case row =>
    intro i hi hmem
    rw [rowInterface?] at hi
    split at hi
    · cases hi
    · cases hi
      exact hrow (List.mem_singleton.mp hmem)
  case function =>
    intro f hf hmem
    obtain ⟨returns, setup?, body, rfl⟩ := Driver.queryFunction_eq_wrap hf
    have hname : name = functionName q.name := List.mem_singleton.mp hmem
    refine functionName_append_ne hcapital q.name "" ?_
    rw [String.append_empty, hname]

end Query

/-! ### Files -/

namespace Driver

variable {d : Driver} {queries : List Query} {dss : List QueryDeclarations}

theorem mentionsInterval_iff (d : Driver) (queries : List Query) :
    d.mentionsInterval queries = true ↔
      ∃ q ∈ queries, ∃ c ∈ q.allColumns, ∃ type ∈ c.type?, d.normalize type = "interval" := by
  simp only [mentionsInterval, List.any_eq_true, Option.any_eq_true, beq_iff_eq]
  rfl

theorem interval_mem_imports_iff (queries : List Query) :
    "IPostgresInterval" ∈ (Driver.pg.preamble queries).flatMap Declaration.importedNames ↔
      Driver.pg.mentionsInterval queries = true := by
  rw [preamble]
  cases Driver.pg.mentionsInterval queries <;> decide

theorem header_mem_imports_iff (o : BigNumbers) (queries : List Query) :
    "ResultSetHeader" ∈
        ((Driver.mysql2 o).preamble queries).flatMap Declaration.importedNames ↔
      ∃ q ∈ queries, q.command = .execLastId := by
  have hany : queries.any (·.command == .execLastId) = true ↔
      ∃ q ∈ queries, q.command = .execLastId := by
    simp
  rw [← hany, preamble]
  cases queries.any (·.command == .execLastId) <;> decide

/-- The preamble of a driver makes the type of its connection known, once. -/
theorem exists_connection_type (d : Driver) (queries : List Query) :
    ∃ name, d.connection.type = .named name ∧ isCapitalized name = true ∧
      name.toList.getLast? ≠ some 's' ∧ name.toList.getLast? ≠ some 'w' ∧
      ((d.preamble queries).flatMap Declaration.declaredNames).count name = 1 := by
  cases d with
  | pg =>
    refine ⟨_, rfl, by decide, by decide, by decide, ?_⟩
    rw [preamble]
    cases Driver.pg.mentionsInterval queries <;> decide
  | postgres => exact ⟨_, rfl, by decide, by decide, by decide, rfl⟩
  | mysql2 o =>
    refine ⟨_, rfl, by decide, by decide, by decide, ?_⟩
    rw [preamble]
    cases queries.any (·.command == .execLastId) <;> decide
  | betterSqlite3 safe => exact ⟨_, rfl, by decide, by decide, by decide, rfl⟩
  | turso => exact ⟨_, rfl, by decide, by decide, by decide, rfl⟩

end Driver

/-- Imports and uses agree in a file, for the declarations made for its queries. -/
structure ImportsUsed (d : Driver) (queries : List Query) (dss : List QueryDeclarations) :
    Prop where
  /-- Intervals are imported just where a field of some interface has them in its type. -/
  interval : d = .pg →
    ("IPostgresInterval" ∈ (d.preamble queries).flatMap Declaration.importedNames ↔
      ∃ ds ∈ dss, ∃ i ∈ ds.interfaces, ∃ f ∈ i.fields,
        "IPostgresInterval" ∈ f.type.references)
  /-- Reply headers are imported just where a function refers to them. -/
  header : ∀ o, d = .mysql2 o →
    ("ResultSetHeader" ∈ (d.preamble queries).flatMap Declaration.importedNames ↔
      ∃ ds ∈ dss, "ResultSetHeader" ∈ ds.function.references)
  /-- Rows are imported where a function refers to them. -/
  packet : ∀ o, d = .mysql2 o → (∃ ds ∈ dss, "RowDataPacket" ∈ ds.function.references) →
    "RowDataPacket" ∈ (d.preamble queries).flatMap Declaration.importedNames
  /-- Every function takes a connection first, and its type has one declaration. -/
  connection : ∃ name,
    (∀ ds ∈ dss, ds.function.function.params.head?.map (·.type) = some (.named name)) ∧
    ((d.preamble queries ++ dss.flatMap (·.toList)).flatMap Declaration.declaredNames).count
      name = 1

namespace Driver

variable {d : Driver} {queries : List Query} {dss : List QueryDeclarations}

theorem interval_imported_iff
    (h : List.Forall₂ (fun q ds => q.declarations .pg = .ok ds) queries dss) :
    "IPostgresInterval" ∈ (Driver.pg.preamble queries).flatMap Declaration.importedNames ↔
      ∃ ds ∈ dss, ∃ i ∈ ds.interfaces, ∃ f ∈ i.fields,
        "IPostgresInterval" ∈ f.type.references := by
  have hquery : ∀ (q : Query) (ds : QueryDeclarations), q.declarations .pg = .ok ds →
      ((∃ c ∈ q.allColumns, ∃ type ∈ c.type?, Driver.pg.normalize type = "interval") ↔
        ∃ i ∈ ds.interfaces, ∃ f ∈ i.fields, "IPostgresInterval" ∈ f.type.references) := by
    intro q ds hds
    rw [Query.exists_field_references_iff hds]
    simp only [mem_references_pg_columnType_iff, Query.allColumns, List.mem_append,
      List.mem_filterMap, or_and_right, exists_or]
    refine or_congr ?_ ?_
    · -- a placeholder counts only if it has a column
      constructor
      · rintro ⟨c, ⟨p, hp, hc⟩, htype⟩
        exact ⟨p, hp, c, hc, htype⟩
      · rintro ⟨p, hp, c, hc, htype⟩
        exact ⟨c, ⟨p, hp, hc⟩, htype⟩
    · simp
  rw [interval_mem_imports_iff, mentionsInterval_iff]
  induction h with
  | nil => simp
  | cons hq _ ih => simp only [List.exists_mem_cons_iff, hquery _ _ hq, ih]

theorem header_imported_iff {o : BigNumbers}
    (h : List.Forall₂ (fun q ds => q.declarations (.mysql2 o) = .ok ds) queries dss) :
    "ResultSetHeader" ∈
        ((Driver.mysql2 o).preamble queries).flatMap Declaration.importedNames ↔
      ∃ ds ∈ dss, "ResultSetHeader" ∈ ds.function.references := by
  rw [header_mem_imports_iff]
  induction h with
  | nil => simp
  | cons hq _ ih =>
    obtain ⟨f, hf, rfl⟩ := Query.declarations_eq_ok_iff.mp hq
    simp only [List.exists_mem_cons_iff, Query.header_mem_references_iff hf, ih]

theorem packet_mem_imports (o : BigNumbers) (queries : List Query) :
    "RowDataPacket" ∈ ((Driver.mysql2 o).preamble queries).flatMap Declaration.importedNames := by
  rw [preamble]
  cases queries.any (·.command == .execLastId) <;> decide

theorem connection_declared_once
    (h : List.Forall₂ (fun q ds => q.declarations d = .ok ds) queries dss) :
    ∃ name,
      (∀ ds ∈ dss, ds.function.function.params.head?.map (·.type) = some (.named name)) ∧
      ((d.preamble queries ++ dss.flatMap (·.toList)).flatMap Declaration.declaredNames).count
        name = 1 := by
  obtain ⟨name, htype, hcapital, hargs, hrow, hcount⟩ := exists_connection_type d queries
  refine ⟨name, ?_, ?_⟩
  · intro ds hds
    obtain ⟨q, -, hq⟩ := exists_of_mem_mapM (mapM_eq_ok_iff.mpr h) hds
    obtain ⟨f, hf, rfl⟩ := Query.declarations_eq_ok_iff.mp hq
    obtain ⟨returns, setup?, body, rfl⟩ := queryFunction_eq_wrap hf
    exact congrArg some htype
  · have hnone : name ∉ (dss.flatMap (·.toList)).flatMap Declaration.declaredNames := by
      intro hmem
      obtain ⟨decl, hdecl, hname⟩ := List.mem_flatMap.mp hmem
      obtain ⟨ds, hds, hdecl⟩ := List.mem_flatMap.mp hdecl
      obtain ⟨q, -, hq⟩ := exists_of_mem_mapM (mapM_eq_ok_iff.mpr h) hds
      exact Query.not_mem_declaredNames hq hcapital (Query.ne_argsName hargs q)
        (Query.ne_rowName hrow q) decl hdecl hname
    rw [List.flatMap_append, List.count_append, hcount, List.count_eq_zero.mpr hnone]

/-- **A file imports what it uses.** The file of any queries consists of the preamble of
    the driver and the declarations of each query, and in it intervals are imported
    exactly if a field has them in its type, reply headers exactly if a function refers to
    them, rows whenever one does; and the type that every function takes first is imported
    or declared exactly once. -/
theorem file_imports_used {g : QueryGroup} {out : OutputFile} (h : d.file g = .ok out) :
    ∃ dss, List.Forall₂ (fun q ds => q.declarations d = .ok ds) g.queries dss ∧
      out.contents = Text.utf8
        (SourceFile.text ⟨some banner, d.preamble g.queries ++ dss.flatMap (·.toList)⟩) ∧
      ImportsUsed d g.queries dss := by
  obtain ⟨dss, hdss, rfl⟩ := file_eq_ok_iff.mp h
  refine ⟨dss, hdss, rfl, ?interval, ?header, ?packet, connection_declared_once hdss⟩
  case interval =>
    rintro rfl
    exact interval_imported_iff hdss
  case header =>
    rintro o rfl
    exact header_imported_iff hdss
  case packet =>
    rintro o rfl -
    exact packet_mem_imports o g.queries

/-- A command without a result that has, all the same, a column of intervals. -/
def touchSpans : QueryGroup where
  filename := "q.sql"
  queries := [((Query.plain "TouchSpans" .exec "UPDATE t SET n = $1" "q.sql").addParam
    .unknown).addColumn ((Column.ofType "span" "pg_catalog.INTERVAL").withArray 2)]

theorem file_imports_used_touchSpans :
    ∃ out, Driver.pg.file touchSpans = .ok out ∧ ∃ dss,
      List.Forall₂ (fun q ds => q.declarations .pg = .ok ds) touchSpans.queries dss ∧
      out.contents = Text.utf8 (SourceFile.text
        ⟨some banner, Driver.pg.preamble touchSpans.queries ++ dss.flatMap (·.toList)⟩) ∧
      ImportsUsed .pg touchSpans.queries dss ∧
      ∃ ds ∈ dss, ∃ i ∈ ds.interfaces, ∃ f ∈ i.fields,
        "IPostgresInterval" ∈ f.type.references := by
  have hsupported : ∀ q ∈ touchSpans.queries, Driver.pg.Supports q.command := by decide
  obtain ⟨out, hout⟩ := exists_file hsupported
  obtain ⟨dss, hdss, hcontents, himports⟩ := file_imports_used hout
  refine ⟨out, hout, dss, hdss, hcontents, himports, (himports.interval rfl).mp ?_⟩
  rw [interval_mem_imports_iff]
  decide

end Driver
end QueryClient
