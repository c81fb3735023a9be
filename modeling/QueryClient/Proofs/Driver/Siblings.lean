/-
  QueryClient/Proofs/Driver/Siblings.lean
  =======================================
  **Where drivers of one family differ.** Two PostgreSQL libraries, two SQLite libraries and
  MySQL connections with different options share most of their type tables. A row of one
  table could hide a name of another one, so what follows from the difference of two tables
  is worked out name by name: a table is its first row and the rest
  (`TypeTable.lookup_cons_of_notMem`), or one table behind another (`TypeTable.lookup_append`).

  From the table to the column it is one step for all of them. Layers and nulls are put around
  the type in the table, whatever it is; so two drivers agree on a column exactly if they
  agree on its base type (`Driver.columnType_eq_iff`), and a change of the base type goes
  through the layers (`Driver.columnType_eq_mapBase`).
-/
import QueryClient.Proofs.Driver.ColumnType

namespace QueryClient

open Script

/-! ### Types with another base -/

namespace Script.TypeExpr

/-- The same layers of arrays and nulls around another innermost type. -/
def mapBase (f : TypeExpr → TypeExpr) : TypeExpr → TypeExpr
  | .nullable t => .nullable (t.mapBase f)
  | .array t => .array (t.mapBase f)
  | t => f t

variable {t u : TypeExpr}

theorem mapBase_of_isBare (h : t.isBare = true) (f : TypeExpr → TypeExpr) :
    t.mapBase f = f t := by
  cases t with
  | nullable t => cases h
  | array t => cases h
  | _ => rfl

theorem mapBase_arrays (h : t.isBare = true) (f : TypeExpr → TypeExpr) (n : Nat) :
    (arrays n t).mapBase f = arrays n (f t) := by
  induction n with
  | zero => exact mapBase_of_isBare h f
  | succ n ih => rw [arrays, mapBase, ih, arrays]

theorem orNull_eq (h : t.isNullable = false) : t.orNull = .nullable t := by
  cases t with
  | nullable t => cases h
  | _ => rfl

theorem arrays_inj (n : Nat) : arrays n t = arrays n u ↔ t = u := by
  induction n with
  | zero => exact Iff.rfl
  | succ n ih => rw [arrays, arrays, array.injEq, ih]

end Script.TypeExpr

/-! ### Tables -/

namespace TypeTable

/-- The names that a table lists. -/
def names (t : TypeTable) : List String := t.flatMap (·.1)

theorem lookup_cons_of_mem {row : List String × TypeExpr} {name : String} (h : name ∈ row.1)
    (t : TypeTable) : lookup (row :: t) name = some row.2 := by
  rw [lookup, List.find?_cons, List.contains_iff_mem.mpr h]
  rfl

theorem lookup_cons_of_notMem {row : List String × TypeExpr} {name : String} (h : name ∉ row.1)
    (t : TypeTable) : lookup (row :: t) name = lookup t name := by
  have hnot : row.1.contains name = false := by
    rw [← Bool.not_eq_true, List.contains_iff_mem]
    exact h
  rw [lookup, List.find?_cons, hnot, lookup]

theorem lookup_append (t u : TypeTable) (name : String) :
    lookup (t ++ u) name = (lookup t name).or (lookup u name) := by
  rw [lookup, List.find?_append, Option.map_or]
  rfl

theorem lookup_eq_none_iff {t : TypeTable} {name : String} :
    lookup t name = none ↔ name ∉ t.names := by
  simp [lookup, names, List.find?_eq_none]

end TypeTable

/-! ### From the table to the column -/

namespace Driver

variable {c : Column} {type : String} {d d' : Driver}

theorem isNullable_layers (d : Driver) (c : Column) (type : String) :
    (TypeExpr.arrays (arrayLayers c) (d.baseType type)).isNullable = false :=
  TypeExpr.isNullable_arrays (TypeExpr.isNullable_of_isBare (isBare_baseType d type)) _

/-- What is put around two base types is the same, so it hides no difference. -/
theorem columnType_eq_iff (h : c.type? = some type) :
    d.columnType (some c) = d'.columnType (some c) ↔ d.baseType type = d'.baseType type := by
  rw [columnType_eq h, columnType_eq h]
  cases c.notNull with
  | true => exact TypeExpr.arrays_inj _
  | false =>
    rw [if_neg Bool.false_ne_true, if_neg Bool.false_ne_true,
      TypeExpr.orNull_eq (isNullable_layers d c type),
      TypeExpr.orNull_eq (isNullable_layers d' c type), TypeExpr.nullable.injEq]
    exact TypeExpr.arrays_inj _

/-- A driver that changes the base type changes nothing else. -/
theorem columnType_eq_mapBase (h : c.type? = some type) {f : TypeExpr → TypeExpr}
    (hbase : d'.baseType type = f (d.baseType type)) :
    d'.columnType (some c) = (d.columnType (some c)).mapBase f := by
  have hlayers : TypeExpr.arrays (arrayLayers c) (d'.baseType type) =
      (TypeExpr.arrays (arrayLayers c) (d.baseType type)).mapBase f := by
    rw [hbase, TypeExpr.mapBase_arrays (isBare_baseType d type)]
  rw [columnType_eq h, columnType_eq h]
  cases c.notNull with
  | true => exact hlayers
  | false =>
    rw [if_neg Bool.false_ne_true, if_neg Bool.false_ne_true,
      TypeExpr.orNull_eq (isNullable_layers d c type),
      TypeExpr.orNull_eq (isNullable_layers d' c type), TypeExpr.mapBase, hlayers]

/-- The column has a type, and its name is one of those given, in the form that the driver
    looks it up by. -/
def TypedBy (d : Driver) (names : List String) (column? : Option Column) : Prop :=
  ∃ c type, column? = some c ∧ c.type? = some type ∧ d.normalize type ∈ names

instance (d : Driver) (names : List String) (column? : Option Column) :
    Decidable (d.TypedBy names column?) :=
  decidable_of_iff (((column?.bind (·.type?)).any fun type => d.normalize type ∈ names) = true) <| by
    rcases column? with _ | ⟨name?, _ | type, notNull, isArray, arrayDims⟩
    · simp [TypedBy]
    · simp [TypedBy]
    · simp [TypedBy]

/-- Two drivers that agree on the base types of all names but some agree on the columns of
    all types but these. -/
theorem columnType_eq_of_not_typedBy {names : List String} {column? : Option Column}
    (hbase : ∀ type, d.normalize type ∉ names → d'.baseType type = d.baseType type)
    (h : ¬d.TypedBy names column?) : d'.columnType column? = d.columnType column? := by
  cases column? with
  | none => rfl
  | some c =>
    cases htype : c.type? with
    | none => simp only [columnType, htype]
    | some type =>
      refine (columnType_eq_iff htype).mpr (hbase type ?_)
      intro hname
      exact h ⟨c, type, rfl, htype, hname⟩

/-! ### PostgreSQL -/

/-- The types that one of the PostgreSQL libraries makes objects of. -/
def objectNames : List String := ["time", "timetz", "interval", "point", "circle"]

/-- These types are in the second part of both tables only, which lists nothing else. -/
theorem lookup_objectNames : ∀ name ∈ objectNames, postgresTypes.lookup name = none ∧
    postgresTextTypes.lookup name = some .string ∧
    ∃ t, pgTypes.lookup name = some t ∧ t ≠ .string := by
  have hpart (name : String) {t : TypeExpr} (hshared : postgresTypes.lookup name = none)
      (htext : postgresTextTypes.lookup name = some .string)
      (hobject : pgTypes.lookup name = some t) (ht : t ≠ .string) :
      postgresTypes.lookup name = none ∧ postgresTextTypes.lookup name = some .string ∧
        ∃ t, pgTypes.lookup name = some t ∧ t ≠ .string := ⟨hshared, htext, t, hobject, ht⟩
  intro name hname
  simp only [objectNames, List.mem_cons, List.not_mem_nil, or_false] at hname
  rcases hname with rfl | rfl | rfl | rfl | rfl
  · exact hpart "time" rfl rfl rfl nofun
  · exact hpart "timetz" rfl rfl rfl nofun
  · exact hpart "interval" rfl rfl rfl nofun
  · exact hpart "point" rfl rfl rfl nofun
  · exact hpart "circle" rfl rfl rfl nofun

theorem baseType_postgres_of_notMem (type : String)
    (h : Driver.pg.normalize type ∉ objectNames) :
    Driver.postgres.baseType type = Driver.pg.baseType type := by
  have hnormalize : Driver.postgres.normalize type = Driver.pg.normalize type := rfl
  have hobjects : pgTypes.lookup (Driver.pg.normalize type) = none :=
    TypeTable.lookup_eq_none_iff.mpr h
  have htexts : postgresTextTypes.lookup (Driver.pg.normalize type) = none :=
    TypeTable.lookup_eq_none_iff.mpr h
  rw [baseType, baseType, hnormalize, types, types, TypeTable.lookup_append,
    TypeTable.lookup_append, hobjects, htexts]
  rfl

theorem baseType_postgres_of_mem {type : String} (h : Driver.pg.normalize type ∈ objectNames) :
    Driver.postgres.baseType type = .string ∧ Driver.pg.baseType type ≠ .string := by
  have hnormalize : Driver.postgres.normalize type = Driver.pg.normalize type := rfl
  obtain ⟨hshared, htext, t, hobject, ht⟩ := lookup_objectNames _ h
  constructor
  · rw [baseType, hnormalize, types, TypeTable.lookup_append, hshared, htext]
    rfl
  · rw [baseType, types, TypeTable.lookup_append, hshared, hobject]
    exact ht

/-! ### SQLite -/

/-- The types of integers. -/
def integerNames : List String :=
  ["int", "integer", "tinyint", "smallint", "mediumint", "bigint", "unsignedbigint", "int2", "int8"]

/-- The integers are the first row, and the only one that the option changes. -/
theorem lookup_sqliteTypes_of_mem {name : String} (h : name ∈ integerNames)
    (integer : TypeExpr) : (sqliteTypes integer).lookup name = some integer :=
  TypeTable.lookup_cons_of_mem h _

theorem lookup_sqliteTypes_of_notMem {name : String} (h : name ∉ integerNames)
    (integer integer' : TypeExpr) :
    (sqliteTypes integer).lookup name = (sqliteTypes integer').lookup name :=
  (TypeTable.lookup_cons_of_notMem h _).trans (TypeTable.lookup_cons_of_notMem h _).symm

theorem baseType_safeIntegers_of_notMem (type : String)
    (h : Driver.turso.normalize type ∉ integerNames) :
    (Driver.betterSqlite3 true).baseType type = Driver.turso.baseType type := by
  have hnormalize : (Driver.betterSqlite3 true).normalize type = Driver.turso.normalize type := rfl
  rw [baseType, baseType, hnormalize, types, types, lookup_sqliteTypes_of_notMem h _ .number]
  rfl

theorem baseType_safeIntegers_of_mem {type : String}
    (h : Driver.turso.normalize type ∈ integerNames) :
    (Driver.betterSqlite3 true).baseType type = .bigint ∧
      Driver.turso.baseType type = .number := by
  have hnormalize : (Driver.betterSqlite3 true).normalize type = Driver.turso.normalize type := rfl
  constructor
  · rw [baseType, hnormalize, types, lookup_sqliteTypes_of_mem h]
    rfl
  · rw [baseType, types, lookup_sqliteTypes_of_mem h]
    rfl

/-! ### MySQL -/

theorem baseType_bigNumbers_of_notMem (o o' : BigNumbers) (type : String)
    (h : (Driver.mysql2 o).normalize type ∉ ["bigint"]) :
    (Driver.mysql2 o').baseType type = (Driver.mysql2 o).baseType type := by
  have hnormalize : (Driver.mysql2 o').normalize type = (Driver.mysql2 o).normalize type := rfl
  have hrest : (mysqlTypes o').lookup ((Driver.mysql2 o).normalize type) =
      (mysqlTypes o).lookup ((Driver.mysql2 o).normalize type) :=
    (TypeTable.lookup_cons_of_notMem h _).trans (TypeTable.lookup_cons_of_notMem h _).symm
  rw [baseType, baseType, hnormalize, types, types, hrest]
  rfl

/-! ### All families -/

/-- **Drivers of one family.** For every column: the PostgreSQL libraries have the same type
    for it, except that one has texts where the other has objects, and there the two differ
    in the base type only. Without integers of any size the SQLite libraries have the same
    type; with them they differ exactly on the integers, in `bigint` for `number` under the
    same layers. Connections with different options for large numbers differ on `bigint`
    columns at most. -/
theorem columnType_siblings (column? : Option Column) :
    (¬Driver.pg.TypedBy objectNames column? →
      Driver.postgres.columnType column? = Driver.pg.columnType column?) ∧
    (Driver.pg.TypedBy objectNames column? →
      Driver.postgres.columnType column? =
        (Driver.pg.columnType column?).mapBase (fun _ => .string) ∧
      Driver.postgres.columnType column? ≠ Driver.pg.columnType column?) ∧
    (Driver.betterSqlite3 false).columnType column? = Driver.turso.columnType column? ∧
    ((Driver.betterSqlite3 true).columnType column? ≠ Driver.turso.columnType column? ↔
      Driver.turso.TypedBy integerNames column?) ∧
    (Driver.turso.TypedBy integerNames column? →
      Driver.turso.columnType column? =
        (Driver.turso.columnType column?).mapBase (fun _ => .number) ∧
      (Driver.betterSqlite3 true).columnType column? =
        (Driver.turso.columnType column?).mapBase (fun _ => .bigint)) ∧
    ∀ o o' : BigNumbers,
      (Driver.mysql2 o).columnType column? ≠ (Driver.mysql2 o').columnType column? →
        (Driver.mysql2 o).TypedBy ["bigint"] column? := by
  refine ⟨?postgresAlike, ?postgresTexts, rfl, ?sqliteApart, ?sqliteIntegers, ?mysql⟩
  case postgresAlike =>
    exact columnType_eq_of_not_typedBy baseType_postgres_of_notMem
  case postgresTexts =>
    rintro ⟨c, type, rfl, htype, hname⟩
    obtain ⟨htext, hobject⟩ := baseType_postgres_of_mem hname
    refine ⟨columnType_eq_mapBase htype htext, ?_⟩
    rw [Ne, columnType_eq_iff htype, htext]
    exact hobject.symm
  case sqliteApart =>
    constructor
    · intro hapart
      by_contra hother
      exact hapart (columnType_eq_of_not_typedBy baseType_safeIntegers_of_notMem hother)
    · rintro ⟨c, type, rfl, htype, hname⟩
      obtain ⟨hbigint, hnumber⟩ := baseType_safeIntegers_of_mem hname
      rw [Ne, columnType_eq_iff htype, hbigint, hnumber]
      nofun
  case sqliteIntegers =>
    rintro ⟨c, type, rfl, htype, hname⟩
    obtain ⟨hbigint, hnumber⟩ := baseType_safeIntegers_of_mem hname
    exact ⟨columnType_eq_mapBase htype hnumber, columnType_eq_mapBase htype hbigint⟩
  case mysql =>
    intro o o' hapart
    by_contra hother
    exact hapart (columnType_eq_of_not_typedBy (baseType_bigNumbers_of_notMem o o') hother).symm

/-- A column of large integers and a column of circles, both with arrays and nulls. -/
theorem columnType_siblings_layered :
    let large := some ((Column.ofType "n" "main.BigInt").withArray 2)
    let circle := some ((Column.ofType "c" "Circle").withArray 1)
    let plain : BigNumbers := ⟨false, false⟩
    let mixed : BigNumbers := ⟨true, false⟩
    ¬Driver.pg.TypedBy objectNames large ∧ Driver.pg.TypedBy objectNames circle ∧
      Driver.turso.TypedBy integerNames large ∧
      (Driver.mysql2 plain).columnType large ≠ (Driver.mysql2 mixed).columnType large ∧
      Driver.postgres.columnType large = Driver.pg.columnType large ∧
      Driver.postgres.columnType circle =
        (Driver.pg.columnType circle).mapBase (fun _ => .string) ∧
      (Driver.betterSqlite3 true).columnType large =
        (Driver.turso.columnType large).mapBase (fun _ => .bigint) ∧
      (Driver.mysql2 plain).TypedBy ["bigint"] large := by
  intro large circle plain mixed
  have halike : ¬Driver.pg.TypedBy objectNames large := by decide +kernel
  have hobject : Driver.pg.TypedBy objectNames circle := by decide +kernel
  have hinteger : Driver.turso.TypedBy integerNames large := by decide +kernel
  have hmixed : (Driver.mysql2 plain).columnType large ≠ (Driver.mysql2 mixed).columnType large := by
    rw [Ne, columnType_eq_iff rfl]
    nofun
  obtain ⟨hsame, -, -, -, hbigint, hmysql⟩ := columnType_siblings large
  obtain ⟨-, htext, -⟩ := columnType_siblings circle
  exact ⟨halike, hobject, hinteger, hmixed, hsame halike, (htext hobject).1, (hbigint hinteger).2,
    hmysql plain mixed hmixed⟩

end Driver
end QueryClient
