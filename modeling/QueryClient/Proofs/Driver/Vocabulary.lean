/-
  QueryClient/Proofs/Driver/Vocabulary.lean
  =========================================
  **Where the words of a query function come from.** The function of a query is written by
  putting texts into fixed forms. These texts, the `slots` of its body, come from two
  sources: a driver has words of its own, which are few and listed (`vocabulary`), and
  everything else is a name of the plan (`Driver.makes_queryFunction`). It is the same
  with the types of columns: their names come from the tables, and the name of an SQL type
  is looked up and never written (`Driver.names_columnType_subset`).

  So what is to be shown of all texts in a file need only be decided for the listed words
  and shown for the names that are given.
-/
import QueryClient.Driver.Emission
import QueryClient.Proofs.Driver.ColumnType
import QueryClient.Proofs.Script.Containment

namespace QueryClient

open Script

/-! ### Texts that a body is made of -/

/-- The texts that a call is made of. -/
def ClientCall.slots : ClientCall → List String
  | .settings callee yields queryKey query valuesKey bound more =>
    callee :: queryKey :: query :: valuesKey :: bound ++ (yields.map TypeExpr.text).toList ++
      more.map Property.text
  | .text c => c.callee :: c.query :: c.accessor :: c.bound
  | .prepared callee bound yields => callee :: bound ++ (yields.map TypeExpr.text).toList

def RowShape.fields : RowShape → List String
  | .object fields => fields
  | .nothing => []

/-- The texts that a body is made of. -/
def QueryBody.slots : QueryBody → List String
  | .run c => c.slots
  | .lastId c binding result => binding :: result :: c.slots
  | .first c binding rows row => binding :: rows :: c.slots ++ row.fields
  | .every c binding rows row => binding :: rows :: c.slots ++ row.fields
  | .mapped c row => (ClientCall.text c).slots ++ row.fields

/-! ### Words -/

/-- All words that a driver puts into a body on its own. -/
def vocabulary : List String :=
  ["client.query", "text", "values", "rowMode: \"array\",", "sql.unsafe", "", ".values()", "sql",
    "RowDataPacket[]", "ResultSetHeader", "rowsAsArray: true,", "stmt.run", "stmt.all", "any[][]",
    "client.execute", "args", "result", "[result]", "result.insertId",
    "result.lastInsertRowid ?? null", "rows", "[rows]", "result.rows"]

namespace FunctionPlan

/-- The texts that a body for the plan may show. -/
inductive Shows (p : FunctionPlan) : String → Prop where
  | word {s : String} (listed : s ∈ vocabulary) : Shows p s
  | query : Shows p p.queryConstant
  | bound {e : String} (isBound : e ∈ p.bound) : Shows p e
  | column {name : String} (isColumn : name ∈ p.columnNames) : Shows p name

theorem shows_rowShape (p : FunctionPlan) : ∀ f ∈ p.rowShape.fields, p.Shows f := by
  unfold rowShape
  cases p.rowType? with
  | none => exact List.forall_mem_nil _
  | some t => exact fun f hf => .column hf

/-- A function that is made for the plan. -/
structure Makes (p : FunctionPlan) (d : Driver) (f : QueryFunction) : Prop where
  name : f.name = p.name
  connection : f.connection = d.connection
  argsType : f.argsType? = p.argsType?
  returns : ∀ name ∈ f.returns.names, name ∈ p.rowType.names
  setup : ∀ s ∈ f.setup?, ∃ safeIntegers asArrays, s = Driver.prepare safeIntegers p asArrays
  body : ∀ s ∈ f.body.slots, p.Shows s

end FunctionPlan

namespace Driver

variable {p : FunctionPlan}

/-! ### Calls -/

theorem shows_settings {callee queryKey valuesKey : String} {yields : Option TypeExpr}
    {more : ObjectLiteral} (hcallee : p.Shows callee) (hqueryKey : p.Shows queryKey)
    (hvaluesKey : p.Shows valuesKey) (hyields : ∀ t ∈ yields, p.Shows t.text)
    (hmore : ∀ q ∈ more, p.Shows q.text) :
    ∀ s ∈ (ClientCall.settings callee yields queryKey p.queryConstant valuesKey p.bound
      more).slots, p.Shows s := by
  intro s hs
  simp only [ClientCall.slots, List.cons_append, List.mem_cons, List.mem_append, List.mem_map,
    Option.mem_toList, Option.map_eq_some_iff] at hs
  rcases hs with rfl | rfl | rfl | rfl | (hbound | ⟨t, ht, rfl⟩) | ⟨q, hq, rfl⟩
  · exact hcallee
  · exact hqueryKey
  · exact .query
  · exact hvaluesKey
  · exact .bound hbound
  · exact hyields t ht
  · exact hmore q hq

theorem shows_prepared {callee : String} {yields : Option TypeExpr} (hcallee : p.Shows callee)
    (hyields : ∀ t ∈ yields, p.Shows t.text) :
    ∀ s ∈ (ClientCall.prepared callee p.bound yields).slots, p.Shows s := by
  intro s hs
  simp only [ClientCall.slots, List.cons_append, List.mem_cons, List.mem_append,
    Option.mem_toList, Option.map_eq_some_iff] at hs
  rcases hs with rfl | hbound | ⟨t, ht, rfl⟩
  · exact hcallee
  · exact .bound hbound
  · exact hyields t ht

theorem shows_preparedRows (p : FunctionPlan) : ∀ s ∈ (preparedRows p).slots, p.Shows s := by
  refine shows_prepared (.word (by decide)) ?_
  intro t ht
  obtain ⟨name, -, rfl⟩ := Option.map_eq_some_iff.mp ht
  exact .word (by decide)

theorem shows_postgresCall {accessor : String} (haccessor : p.Shows accessor) :
    ∀ s ∈ (ClientCall.text (postgresCall p accessor)).slots, p.Shows s := by
  intro s hs
  simp only [ClientCall.slots, postgresCall, List.mem_cons] at hs
  rcases hs with rfl | rfl | rfl | hbound
  · exact .word (by decide)
  · exact .query
  · exact haccessor
  · exact .bound hbound

theorem shows_pgCall (p : FunctionPlan) : ∀ s ∈ (pgCall p).slots, p.Shows s := by
  refine shows_settings (.word (by decide)) (.word (by decide)) (.word (by decide)) ?_ ?_
  · simp
  · exact List.forall_mem_singleton.mpr (.word (by decide))

theorem shows_tursoCall (p : FunctionPlan) : ∀ s ∈ (tursoCall p).slots, p.Shows s := by
  refine shows_settings (.word (by decide)) (.word (by decide)) (.word (by decide)) ?_ ?_
  · simp
  · simp

theorem shows_mysqlCall {yields : Option TypeExpr} {more : ObjectLiteral}
    (hyields : ∀ t ∈ yields, p.Shows t.text) (hmore : ∀ q ∈ more, p.Shows q.text) :
    ∀ s ∈ (mysqlCall p yields more).slots, p.Shows s :=
  shows_settings (.word (by decide)) (.word (by decide)) (.word (by decide)) hyields hmore

theorem shows_mysqlRows (p : FunctionPlan) : ∀ s ∈ (mysqlRows p).slots, p.Shows s := by
  refine shows_mysqlCall ?_ ?_
  · rintro t ⟨⟩
    exact .word (by decide)
  · exact List.forall_mem_singleton.mpr (.word (by decide))

/-! ### Functions -/

theorem shows_rows {binding rows : String} {c : ClientCall} (hbinding : binding ∈ vocabulary)
    (hrows : rows ∈ vocabulary) (hcall : ∀ s ∈ c.slots, p.Shows s) :
    ∀ s ∈ binding :: rows :: c.slots ++ p.rowShape.fields, p.Shows s := by
  intro s hs
  simp only [List.cons_append, List.mem_cons, List.mem_append] at hs
  rcases hs with rfl | rfl | hs | hs
  · exact .word hbinding
  · exact .word hrows
  · exact hcall s hs
  · exact p.shows_rowShape s hs

theorem makes_wrap (d : Driver) {returns : TypeExpr} {setup? : Option String} {body : QueryBody}
    (hreturns : ∀ name ∈ returns.names, name ∈ p.rowType.names)
    (hsetup : setup? = none ∨ ∃ safeIntegers asArrays,
      setup? = some (prepare safeIntegers p asArrays))
    (hbody : ∀ s ∈ body.slots, p.Shows s) : p.Makes d (d.wrap p returns setup? body) := by
  refine ⟨rfl, rfl, rfl, hreturns, ?_, hbody⟩
  rintro s hs
  change s ∈ setup? at hs
  rcases hsetup with rfl | ⟨safeIntegers, asArrays, rfl⟩
  · cases hs
  · cases hs
    exact ⟨safeIntegers, asArrays, rfl⟩

theorem makes_execFunction (d : Driver) (p : FunctionPlan) : p.Makes d (d.execFunction p) := by
  have hunit : ∀ name ∈ TypeExpr.unit.names, name ∈ p.rowType.names := List.forall_mem_nil _
  cases d with
  | pg => exact makes_wrap _ hunit (.inl rfl) (shows_pgCall p)
  | postgres => exact makes_wrap _ hunit (.inl rfl) (shows_postgresCall (.word (by decide)))
  | mysql2 o => exact makes_wrap _ hunit (.inl rfl) (shows_mysqlCall (by simp) (by simp))
  | betterSqlite3 safe =>
    exact makes_wrap _ hunit (.inr ⟨safe, false, rfl⟩)
      (shows_prepared (.word (by decide)) (by simp))
  | turso => exact makes_wrap _ hunit (.inl rfl) (shows_tursoCall p)

theorem makes_lastIdFunction {d : Driver} {f : QueryFunction} (h : d.lastIdFunction p = .ok f) :
    p.Makes d f := by
  cases d with
  | mysql2 o =>
    cases h
    refine makes_wrap _ (List.forall_mem_nil _) (.inl rfl) ?_
    have hcall : ∀ s ∈ (mysqlCall p (some resultHeader) []).slots, p.Shows s := by
      refine shows_mysqlCall ?_ (by simp)
      rintro t ⟨⟩
      exact .word (by decide)
    exact List.forall_mem_cons.mpr
      ⟨.word (by decide), List.forall_mem_cons.mpr ⟨.word (by decide), hcall⟩⟩
  | turso =>
    cases h
    refine makes_wrap _ (List.forall_mem_nil _) (.inl rfl) ?_
    exact List.forall_mem_cons.mpr
      ⟨.word (by decide), List.forall_mem_cons.mpr ⟨.word (by decide), shows_tursoCall p⟩⟩
  | pg => cases h
  | postgres => cases h
  | betterSqlite3 safe => cases h

theorem makes_oneFunction (d : Driver) (p : FunctionPlan) : p.Makes d (d.oneFunction p) := by
  have hreturns : ∀ name ∈ p.rowType.orNull.names, name ∈ p.rowType.names := by
    simp [TypeExpr.names_orNull]
  cases d with
  | pg =>
    exact makes_wrap _ hreturns (.inl rfl) (shows_rows (by decide) (by decide) (shows_pgCall p))
  | postgres =>
    exact makes_wrap _ hreturns (.inl rfl)
      (shows_rows (by decide) (by decide) (shows_postgresCall (.word (by decide))))
  | mysql2 o =>
    exact makes_wrap _ hreturns (.inl rfl) (shows_rows (by decide) (by decide) (shows_mysqlRows p))
  | betterSqlite3 safe =>
    exact makes_wrap _ hreturns (.inr ⟨safe, _, rfl⟩)
      (shows_rows (by decide) (by decide) (shows_preparedRows p))
  | turso =>
    exact makes_wrap _ hreturns (.inl rfl) (shows_rows (by decide) (by decide) (shows_tursoCall p))

theorem makes_manyFunction (d : Driver) (p : FunctionPlan) : p.Makes d (d.manyFunction p) := by
  have hreturns : ∀ name ∈ (TypeExpr.array p.rowType).names, name ∈ p.rowType.names := by
    simp [TypeExpr.names]
  cases d with
  | pg =>
    exact makes_wrap _ hreturns (.inl rfl) (shows_rows (by decide) (by decide) (shows_pgCall p))
  | postgres =>
    exact makes_wrap _ hreturns (.inl rfl) (List.forall_mem_append.mpr
      ⟨shows_postgresCall (.word (by decide)), p.shows_rowShape⟩)
  | mysql2 o =>
    exact makes_wrap _ hreturns (.inl rfl) (shows_rows (by decide) (by decide) (shows_mysqlRows p))
  | betterSqlite3 safe =>
    exact makes_wrap _ hreturns (.inr ⟨safe, _, rfl⟩)
      (shows_rows (by decide) (by decide) (shows_preparedRows p))
  | turso =>
    exact makes_wrap _ hreturns (.inl rfl) (shows_rows (by decide) (by decide) (shows_tursoCall p))

/-- Whatever the driver and the command, the function for a plan shows nothing but names of
    the plan and words of the driver. -/
theorem makes_queryFunction {d : Driver} {c : Command} {f : QueryFunction}
    (h : d.queryFunction c p = .ok f) : p.Makes d f := by
  cases c with
  | exec =>
    cases h
    exact makes_execFunction d p
  | execLastId => exact makes_lastIdFunction h
  | one =>
    cases h
    exact makes_oneFunction d p
  | many =>
    cases h
    exact makes_manyFunction d p

/-! ### Types of columns -/

/-- All names in the tables of types. -/
def typeNames : List String := ["Buffer", "Date", "IPostgresInterval", "x", "y", "radius"]

theorem names_subset_of_mem_types (d : Driver) : ∀ row ∈ d.types, row.2.names ⊆ typeNames := by
  cases d with
  | pg => decide
  | postgres => decide
  | mysql2 o =>
    obtain ⟨supported, asStrings⟩ := o
    cases supported <;> cases asStrings <;> decide
  | betterSqlite3 safeIntegers => cases safeIntegers <;> decide
  | turso => decide

theorem names_baseType_subset (d : Driver) (type : String) :
    (d.baseType type).names ⊆ typeNames := by
  unfold baseType
  cases h : d.types.lookup (d.normalize type) with
  | none =>
    have hfallback : d.fallbackType.names = [] := by cases d <;> rfl
    simp [hfallback]
  | some t =>
    obtain ⟨row, hrow, -, rfl⟩ := TypeTable.exists_of_lookup h
    exact names_subset_of_mem_types d row hrow

/-- Whatever the SQL type is called, the type of a column is made of the table's names. -/
theorem names_columnType_subset (d : Driver) (column? : Option Column) :
    (d.columnType column?).names ⊆ typeNames := by
  cases column? with
  | none => exact List.nil_subset _
  | some c =>
    cases htype : c.type? with
    | none =>
      simp only [columnType, htype]
      exact List.nil_subset _
    | some type =>
      have hlayers := names_baseType_subset d type
      rw [← TypeExpr.names_arrays (arrayLayers c)] at hlayers
      rw [columnType_eq htype]
      cases c.notNull with
      | true => exact hlayers
      | false =>
        rw [if_neg Bool.false_ne_true, TypeExpr.names_orNull]
        exact hlayers

end Driver
end QueryClient
