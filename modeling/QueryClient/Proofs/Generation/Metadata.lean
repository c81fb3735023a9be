/-
  QueryClient/Proofs/Generation/Metadata.lean
  ===========================================
  **What a message says beyond its queries has no effect.** The version of the analyser,
  the catalog of a type and the number of a placeholder are not used. The schema of a
  type is: it goes into the type name of the request and from there into each look-up of
  a type. But a name is looked up by what follows its last dot, which is the same with
  the schema and without (`unqualified_append`).

  So erasing all of this, first in the message and then in the request, changes no step
  of the generation, and two messages that agree after the erasure are answered alike.
  Settings have an effect through the driver that they select only
  (`Settings.driver_eq_of_sameDriver`).
-/
import QueryClient.Proofs.Driver.ColumnType
import QueryClient.Proofs.Generation.Grouping
import QueryClient.Wire.Envelope

namespace QueryClient

open Script

/-! ### Requests -/

/-- A type name without the schema. -/
def unqualified (type : String) : String := String.ofList (Driver.afterLastDot type.toList)

theorem unqualified_append (schema name : String) :
    unqualified (schema ++ "." ++ name) = unqualified name := by
  have hchars : (schema ++ "." ++ name).toList = schema.toList ++ '.' :: name.toList := by
    simp
  rw [unqualified, hchars, Driver.afterLastDot_append, unqualified]

theorem Driver.normalize_unqualified (d : Driver) (type : String) :
    d.normalize (unqualified type) = d.normalize type := by
  have hbare : afterLastDot (unqualified type).toList = afterLastDot type.toList := by
    rw [unqualified, String.toList_ofList, afterLastDot_of_notMem (notMem_afterLastDot _)]
  simp only [normalize, hbare]

def Column.withoutMetadata (c : Column) : Column :=
  { c with type? := c.type?.map unqualified }

def Parameter.withoutMetadata (p : Parameter) : Parameter :=
  ⟨0, p.column?.map Column.withoutMetadata⟩

def Query.withoutMetadata (q : Query) : Query :=
  { q with
    params := q.params.map Parameter.withoutMetadata
    columns := q.columns.map Column.withoutMetadata }

def Request.withoutMetadata (r : Request) : Request :=
  { r with queries := r.queries.map Query.withoutMetadata }

/-! ### One query -/

theorem Driver.columnType_withoutMetadata (d : Driver) (column? : Option Column) :
    d.columnType (column?.map Column.withoutMetadata) = d.columnType column? := by
  cases column? with
  | none => rfl
  | some c =>
    obtain ⟨name?, type?, notNull, isArray, arrayDims⟩ := c
    cases type? with
    | none => rfl
    | some type =>
      simp [columnType, Column.withoutMetadata, baseType, normalize_unqualified, arrayLayers]

namespace Query

theorem argFields_withoutMetadata (q : Query) : q.withoutMetadata.argFields = q.argFields := by
  simp [argFields, withoutMetadata, Parameter.withoutMetadata, Function.comp_def,
    Option.bind_map, Column.withoutMetadata]

theorem rowFields_withoutMetadata (q : Query) : q.withoutMetadata.rowFields = q.rowFields := by
  simp [rowFields, withoutMetadata, Column.withoutMetadata, Function.comp_def]

theorem argsInterface?_withoutMetadata (d : Driver) (q : Query) :
    q.withoutMetadata.argsInterface? d = q.argsInterface? d := by
  unfold argsInterface?
  rw [argFields_withoutMetadata]
  simp [withoutMetadata, Parameter.withoutMetadata, Driver.columnType_withoutMetadata,
    List.zipWith_map_right, argsName]

theorem rowInterface?_withoutMetadata (d : Driver) (q : Query) :
    q.withoutMetadata.rowInterface? d = q.rowInterface? d := by
  have htype (c : Column) :
      d.columnType (some c.withoutMetadata) = d.columnType (some c) :=
    d.columnType_withoutMetadata (some c)
  unfold rowInterface?
  rw [rowFields_withoutMetadata]
  simp [withoutMetadata, htype, List.zipWith_map_right, rowName]

theorem plan_withoutMetadata (q : Query) : q.withoutMetadata.plan = q.plan := by
  unfold plan
  rw [argFields_withoutMetadata, rowFields_withoutMetadata]
  simp [withoutMetadata, constantName, argsName, rowName]

theorem declarations_withoutMetadata (d : Driver) (q : Query) :
    q.withoutMetadata.declarations d = q.declarations d := by
  unfold declarations
  rw [plan_withoutMetadata, argsInterface?_withoutMetadata, rowInterface?_withoutMetadata]
  rfl

theorem allColumns_withoutMetadata (q : Query) :
    q.withoutMetadata.allColumns = q.allColumns.map Column.withoutMetadata := by
  simp [allColumns, withoutMetadata, Parameter.withoutMetadata, List.filterMap_map,
    List.map_filterMap, Function.comp_def]

end Query

/-! ### Files -/

namespace Driver

theorem mentionsInterval_withoutMetadata (d : Driver) (queries : List Query) :
    d.mentionsInterval (queries.map Query.withoutMetadata) = d.mentionsInterval queries := by
  simp only [mentionsInterval, Query.allColumns_withoutMetadata, Column.withoutMetadata,
    List.any_map, Option.any_map, Function.comp_def, normalize_unqualified]

theorem preamble_withoutMetadata (d : Driver) (queries : List Query) :
    d.preamble (queries.map Query.withoutMetadata) = d.preamble queries := by
  unfold preamble
  rw [mentionsInterval_withoutMetadata]
  simp [Query.withoutMetadata, Function.comp_def]

theorem fileDeclarations_withoutMetadata (d : Driver) (queries : List Query) :
    d.fileDeclarations (queries.map Query.withoutMetadata) = d.fileDeclarations queries := by
  unfold fileDeclarations
  rw [preamble_withoutMetadata, List.mapM_map]
  simp only [Function.comp_def, Query.declarations_withoutMetadata]

theorem generate_withoutMetadata (d : Driver) (queries : List Query) :
    d.generate (queries.map Query.withoutMetadata) = d.generate queries := by
  have hfile (g : QueryGroup) :
      d.file ⟨g.filename, g.queries.map Query.withoutMetadata⟩ = d.file g := by
    simp only [file, fileDeclarations_withoutMetadata]
  have hfilename (q : Query) : q.withoutMetadata.filename = q.filename := rfl
  unfold generate
  rw [QueryGroup.ofQueries_map hfilename, List.mapM_map]
  simp only [Function.comp_def, hfile]

end Driver

theorem Request.generate_withoutMetadata (r : Request) :
    r.withoutMetadata.generate = r.generate := by
  unfold generate
  cases h : Settings.selectDriver r.settings with
  | error f => simp [withoutMetadata, h]
  | ok d => simp [withoutMetadata, h, Driver.generate_withoutMetadata]

/-! ### Messages -/

namespace Wire

def Identifier.withoutMetadata (i : Identifier) : Identifier :=
  { i with catalog := "", schema := "" }

def Column.withoutMetadata (c : Column) : Column :=
  { c with type? := c.type?.map Identifier.withoutMetadata }

def Parameter.withoutMetadata (p : Parameter) : Parameter :=
  ⟨0, p.column?.map Column.withoutMetadata⟩

def Query.withoutMetadata (q : Query) : Query :=
  { q with
    params := q.params.map Parameter.withoutMetadata
    columns := q.columns.map Column.withoutMetadata }

/-- The message without the version, the catalogs and schemas of type names and the
    numbers of placeholders. -/
def Request.withoutMetadata (r : Request) : Request :=
  { r with
    queries := r.queries.map Query.withoutMetadata
    version := "" }

theorem Identifier.qualified?_withoutMetadata (i : Identifier) :
    i.withoutMetadata.qualified?.map unqualified = i.qualified?.map unqualified := by
  by_cases hname : i.name = ""
  · simp [qualified?, withoutMetadata, hname]
  · by_cases hschema : i.schema = ""
    · simp [qualified?, withoutMetadata, hname, hschema]
    · simp [qualified?, withoutMetadata, hname, hschema, unqualified_append]

theorem Column.toColumn_withoutMetadata (c : Column) :
    c.withoutMetadata.toColumn.withoutMetadata = c.toColumn.withoutMetadata := by
  obtain ⟨name, notNull, isArray, type?, arrayDims⟩ := c
  cases type? with
  | none => rfl
  | some i =>
    simp [toColumn, withoutMetadata, QueryClient.Column.withoutMetadata,
      Identifier.qualified?_withoutMetadata]

theorem Parameter.toParameter_withoutMetadata (p : Parameter) :
    p.withoutMetadata.toParameter.withoutMetadata = p.toParameter.withoutMetadata := by
  obtain ⟨number, column?⟩ := p
  cases column? with
  | none => rfl
  | some c =>
    simp [toParameter, withoutMetadata, QueryClient.Parameter.withoutMetadata,
      Column.toColumn_withoutMetadata]

theorem Query.toQuery_withoutMetadata (q : Query) :
    q.withoutMetadata.toQuery.map QueryClient.Query.withoutMetadata =
      q.toQuery.map QueryClient.Query.withoutMetadata := by
  unfold toQuery
  cases h : Command.ofTag q.command with
  | error unknown => simp [withoutMetadata, h, Except.map]
  | ok command =>
    simp [withoutMetadata, h, Except.map, QueryClient.Query.withoutMetadata,
      Column.toColumn_withoutMetadata, Parameter.toParameter_withoutMetadata]

theorem Request.toRequest_withoutMetadata (r : Request) :
    r.withoutMetadata.toRequest.map QueryClient.Request.withoutMetadata =
      r.toRequest.map QueryClient.Request.withoutMetadata := by
  have hqueries : ((r.queries.map Query.withoutMetadata).mapM Query.toQuery).map
      (List.map QueryClient.Query.withoutMetadata) =
        (r.queries.mapM Query.toQuery).map (List.map QueryClient.Query.withoutMetadata) := by
    rw [List.mapM_map, ← mapM_map_except, ← mapM_map_except]
    simp only [Function.comp_def, Query.toQuery_withoutMetadata]
  -- the settings stand beside the queries and are not touched
  have hrequest (w : Request) : w.toRequest.map QueryClient.Request.withoutMetadata =
      ((w.queries.mapM Query.toQuery).map (List.map QueryClient.Query.withoutMetadata)).map
        fun qs => ⟨qs, w.settings⟩ := by
    rw [toRequest, map_map_except, map_map_except]
    rfl
  rw [hrequest, hrequest]
  exact congrArg _ hqueries

theorem Request.generate_toRequest_withoutMetadata (r : Request) :
    r.withoutMetadata.toRequest.map QueryClient.Request.generate =
      r.toRequest.map QueryClient.Request.generate := by
  have herase (w : Request) : w.toRequest.map QueryClient.Request.generate =
      (w.toRequest.map QueryClient.Request.withoutMetadata).map QueryClient.Request.generate := by
    rw [map_map_except]
    simp only [QueryClient.Request.generate_withoutMetadata]
  rw [herase, toRequest_withoutMetadata, ← herase]

end Wire

/-! ### Settings -/

namespace Settings

/-- Do settings agree in the driver and in the options for it? -/
structure SameDriver (s s' : Settings) : Prop where
  driver? : s.driver? = s'.driver?
  bigNumbers : s.driver? = some "mysql2" → s.bigNumbers = s'.bigNumbers
  safeIntegers : s.driver? = some "better-sqlite3" → s.safeIntegers = s'.safeIntegers

theorem driver_eq_of_sameDriver {s s' : Settings} (h : s.SameDriver s') :
    s.driver = s'.driver := by
  obtain ⟨driver?, runtime?, bigNumbers, safeIntegers⟩ := s
  obtain ⟨hdriver, hbig, hsafe⟩ := h
  dsimp only at hdriver hbig hsafe
  subst hdriver
  unfold driver
  cases hname : s'.driver? with
  | none => rfl
  | some name =>
    rw [hname] at hbig hsafe
    dsimp only
    by_cases hmysql : name = "mysql2"
    · subst hmysql
      rw [hbig rfl]
      rfl
    · by_cases hsqlite : name = "better-sqlite3"
      · subst hsqlite
        rw [hsafe rfl]
        rfl
      · -- the options stand at two drivers of other names
        have hmysql' : ("mysql2" == name) = false := beq_false_of_ne (Ne.symm hmysql)
        have hsqlite' : ("better-sqlite3" == name) = false := beq_false_of_ne (Ne.symm hsqlite)
        simp only [Driver.all, List.find?_cons, Driver.name, hmysql', hsqlite']

theorem generate_eq_of_sameDriver {bs bs' : Bytes} {s s' : Settings} (h : parse bs = .ok s)
    (h' : parse bs' = .ok s') (hsame : s.SameDriver s') (queries : List Query) :
    Request.generate ⟨queries, bs⟩ = Request.generate ⟨queries, bs'⟩ := by
  simp only [Request.generate, selectDriver, h, h', driver_eq_of_sameDriver hsame]

end Settings

/-! ### Both -/

/-- **What is not used has no effect.** Messages that differ in the version, in the catalogs
    and schemas of type names and in the numbers of placeholders only are answered with the
    same files in the same order, or fail alike. So are requests whose settings select the
    same driver with the same options for it, whatever they say about the runtime and about
    other drivers. -/
theorem generate_ignores_metadata :
    (∀ w w' : Wire.Request, w.withoutMetadata = w'.withoutMetadata →
      w.toRequest.map Request.generate = w'.toRequest.map Request.generate) ∧
    ∀ (bs bs' : Bytes) (s s' : Settings), Settings.parse bs = .ok s →
      Settings.parse bs' = .ok s' → s.SameDriver s' → ∀ queries : List Query,
        Request.generate ⟨queries, bs⟩ = Request.generate ⟨queries, bs'⟩ := by
  constructor
  · intro w w' hsame
    rw [← w.generate_toRequest_withoutMetadata, hsame, w'.generate_toRequest_withoutMetadata]
  · intro bs bs' s s' h h' hsame queries
    exact Settings.generate_eq_of_sameDriver h h' hsame queries

/-- A request for intervals, once in a result column and once for a placeholder. -/
def intervals (version catalog schema : String) (number : Int32) (settings : Bytes) :
    Wire.Request where
  queries := [⟨"SELECT $1", "Spans", ":many",
    [⟨"span", false, false, some ⟨catalog, schema, "interval"⟩, 0⟩],
    [⟨number, some ⟨"least", true, false, some ⟨catalog, schema, "interval"⟩, 0⟩⟩], "q.sql"⟩]
  version := version
  settings := settings

theorem generate_ignores_metadata_intervals :
    let bs := Text.utf8 "\x7b\"driver\":\"pg\"\x7d"
    let bs' := Text.utf8
      "\x7b\"runtime\":\"deno\",\"mysql2\":\x7b\"bigNumberStrings\":true\x7d,\"driver\":\"pg\"\x7d"
    let w := intervals "v1.27.0" "" "pg_catalog" 1 bs
    let w' := intervals "" "main" "" (-4) bs
    (w ≠ w' ∧ w.withoutMetadata = w'.withoutMetadata ∧
      w.toRequest.map Request.generate = w'.toRequest.map Request.generate) ∧
    ∃ s s', Settings.parse bs = .ok s ∧ Settings.parse bs' = .ok s' ∧ s ≠ s' ∧ s.SameDriver s' ∧
      Request.generate ⟨[], bs⟩ = Request.generate ⟨[], bs'⟩ := by
  intro bs bs' w w'
  have hsettings : Settings.parse bs = .ok ⟨some "pg", none, ⟨false, false⟩, false⟩ := by
    decide +kernel
  have hsettings' : Settings.parse bs' = .ok ⟨some "pg", some "deno", ⟨false, true⟩, false⟩ := by
    decide +kernel
  have hsame : Settings.SameDriver ⟨some "pg", none, ⟨false, false⟩, false⟩
      ⟨some "pg", some "deno", ⟨false, true⟩, false⟩ := by
    constructor <;> simp
  refine ⟨⟨by simp [w, w', intervals], rfl, generate_ignores_metadata.1 w w' rfl⟩, ?_⟩
  exact ⟨_, _, hsettings, hsettings', by decide, hsame,
    generate_ignores_metadata.2 bs bs' _ _ hsettings hsettings' hsame []⟩

end QueryClient
