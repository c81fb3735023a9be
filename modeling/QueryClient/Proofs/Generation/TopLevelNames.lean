/-
  QueryClient/Proofs/Generation/TopLevelNames.lean
  ================================================
  **When the names at the top of a file clash.** A file declares values (what it imports,
  the constant and the function of each query) and interfaces. The names of one query never
  meet those of another while they are made, so nothing keeps them apart but the names of
  the queries. What follows from these is said exactly:

  * the values are distinct if and only if the functions are, no function is called like
    the constant of another query, and none is called like the one import that has a small
    letter in front (`TopLevel.values_iff`);
  * the interfaces are distinct if and only if the queries with placeholders have distinct
    type names, and so have those with result columns (`TopLevel.interfaces_iff`).

  A file is reordered for this, all constants before all functions and all arguments before
  all rows; a reordering does not change whether names are distinct.
-/
import QueryClient.Proofs.Generation.Containment
import QueryClient.Proofs.Naming.FirstLetter

namespace QueryClient

open Script Naming

namespace Script.Declaration

/-- The names under which a declaration makes values known at the top of its file. -/
def valueNames : Declaration → List String
  | .imported i => i.default?.toList ++ i.names
  | .constant c => [c.name]
  | .function f => [f.name]
  | _ => []

end Script.Declaration

def valueNames (decls : List Declaration) : List String := decls.flatMap Declaration.valueNames

def interfaceNames (decls : List Declaration) : List String :=
  (interfaces decls).map Interface.name

theorem valueNames_append (decls rest : List Declaration) :
    valueNames (decls ++ rest) = valueNames decls ++ valueNames rest := List.flatMap_append

theorem interfaceNames_append (decls rest : List Declaration) :
    interfaceNames (decls ++ rest) = interfaceNames decls ++ interfaceNames rest := by
  rw [interfaceNames, interfaces, List.filterMap_append, List.map_append]
  rfl

/-! ### One query -/

namespace Query

variable {d : Driver} {q : Query} {ds : QueryDeclarations}

/-- The interface of the arguments, where there are placeholders. -/
def argsNames (q : Query) : List String := if q.params = [] then [] else [q.argsName]

/-- The interface of a row, where there are result columns. -/
def rowNames (q : Query) : List String := if q.columns = [] then [] else [q.rowName]

theorem valueNames_declarations (h : q.declarations d = .ok ds) :
    valueNames ds.toList = [q.constantName, functionName q.name] := by
  obtain ⟨f, hf, rfl⟩ := declarations_eq_ok_iff.mp h
  obtain ⟨returns, setup?, body, rfl⟩ := Driver.queryFunction_eq_wrap hf
  rw [QueryDeclarations.toList]
  cases q.argsInterface? d with
  | none => cases q.rowInterface? d <;> rfl
  | some args => cases q.rowInterface? d <;> rfl

theorem interfaceNames_declarations (h : q.declarations d = .ok ds) :
    interfaceNames ds.toList = q.argsNames ++ q.rowNames := by
  obtain ⟨f, hf, rfl⟩ := declarations_eq_ok_iff.mp h
  rw [QueryDeclarations.toList, argsInterface?, rowInterface?, argsNames, rowNames]
  cases q.params with
  | nil => cases q.columns <;> rfl
  | cons p ps => cases q.columns <;> rfl

end Query

/-! ### What the queries of a file have in common -/

namespace Driver

variable {d : Driver} {queries : List Query}

theorem nodup_valueNames_preamble (d : Driver) (queries : List Query) :
    (valueNames (d.preamble queries)).Nodup := by
  cases d with
  | pg =>
    rw [preamble]
    cases Driver.pg.mentionsInterval queries <;> decide
  | postgres => exact List.nodup_singleton _
  | mysql2 o =>
    rw [preamble]
    cases queries.any (·.command == .execLastId) <;> decide
  | betterSqlite3 safe => exact List.nodup_singleton _
  | turso => exact List.nodup_singleton _

/-- What is imported is named in capitals, with one exception. -/
theorem isCapitalized_of_mem_preamble {name : String}
    (h : name ∈ valueNames (d.preamble queries)) :
    isCapitalized name = true ∨ d.name = "mysql2" ∧ name = "mysql" := by
  cases d with
  | pg =>
    left
    rw [preamble] at h
    revert name
    cases Driver.pg.mentionsInterval queries <;> decide
  | postgres =>
    left
    rw [List.mem_singleton.mp h]
    decide
  | mysql2 o =>
    have hname : name = "mysql" ∨ isCapitalized name = true := by
      rw [preamble] at h
      revert name
      cases queries.any (·.command == .execLastId) <;> decide
    exact hname.symm.imp_right fun hmysql => ⟨rfl, hmysql⟩
  | betterSqlite3 safe =>
    left
    rw [List.mem_singleton.mp h]
    decide
  | turso =>
    left
    rw [List.mem_singleton.mp h]
    decide

theorem mysql_mem_preamble (h : d.name = "mysql2") (queries : List Query) :
    "mysql" ∈ valueNames (d.preamble queries) := by
  cases d with
  | mysql2 o =>
    rw [preamble]
    exact List.mem_append_left _ List.mem_cons_self
  | pg => exact absurd h (by decide)
  | postgres => exact absurd h (by decide)
  | betterSqlite3 safe => simp [Driver.name] at h
  | turso => exact absurd h (by decide)

/-- The only interface among what is shared is that of a connection. -/
theorem interfaceNames_preamble (d : Driver) (queries : List Query) :
    interfaceNames (d.preamble queries) = [] ∨
      interfaceNames (d.preamble queries) = ["Client"] := by
  cases d with
  | pg =>
    rw [preamble]
    cases Driver.pg.mentionsInterval queries <;> exact Or.inr rfl
  | postgres => exact Or.inl rfl
  | mysql2 o => exact Or.inl rfl
  | betterSqlite3 safe => exact Or.inl rfl
  | turso => exact Or.inl rfl

end Driver

/-! ### Names with an ending -/

theorem append_right_injective (ending : String) : Function.Injective (· ++ ending) :=
  fun _ _ h => (String.append_left_inj ending).mp h

theorem ne_of_getLast?_ne {s t : String} (h : s.toList.getLast? ≠ t.toList.getLast?) : s ≠ t := by
  rintro rfl
  exact h rfl

theorem nodup_map_append_iff {α : Type} (f : α → String) (ending : String) (xs : List α) :
    (xs.map fun x => f x ++ ending).Nodup ↔ (xs.map f).Nodup := by
  rw [← List.nodup_map_iff (l := xs.map f) (append_right_injective ending), List.map_map]
  rfl

/-! ### One file -/

section

variable {queries : List Query}

/-- The functions of queries. -/
def functionNames (queries : List Query) : List String :=
  queries.map fun q => functionName q.name

/-- Constants and functions of distinct names: the constants are distinct if the functions
    are, and a constant and a function of one name belong to different queries. -/
theorem nodup_constants_functions_iff (queries : List Query) :
    (queries.map Query.constantName ++ functionNames queries).Nodup ↔
      (functionNames queries).Nodup ∧
        ∀ q ∈ queries, ∀ q' ∈ queries, functionName q.name ≠ q'.constantName := by
  have hconstants : (queries.map Query.constantName).Nodup ↔ (functionNames queries).Nodup := by
    have hnames : queries.map Query.constantName =
        queries.map fun q => functionName q.name ++ "Query" := rfl
    rw [hnames, nodup_map_append_iff, functionNames]
  rw [List.nodup_append, hconstants]
  constructor
  · rintro ⟨hnodup, -, hapart⟩
    refine ⟨hnodup, ?_⟩
    intro q hq q' hq' heq
    exact hapart _ (List.mem_map.mpr ⟨q', hq', rfl⟩) _ (List.mem_map.mpr ⟨q, hq, rfl⟩) heq.symm
  · rintro ⟨hnodup, hapart⟩
    refine ⟨hnodup, hnodup, ?_⟩
    intro name hname name' hname' heq
    obtain ⟨q', hq', rfl⟩ := List.mem_map.mp hname
    obtain ⟨q, hq, rfl⟩ := List.mem_map.mp hname'
    exact hapart q hq q' hq' heq.symm

/-- No constant is called like an import, and no function save for the one exception. -/
theorem imports_apart_iff (d : Driver) (group queries : List Query) :
    (∀ name ∈ valueNames (d.preamble group),
        ∀ name' ∈ queries.map Query.constantName ++ functionNames queries, name ≠ name') ↔
      (d.name = "mysql2" → ∀ q ∈ queries, functionName q.name ≠ "mysql") := by
  constructor
  · intro hapart hdriver q hq heq
    have hmem : functionName q.name ∈ queries.map Query.constantName ++ functionNames queries :=
      List.mem_append_right _ (List.mem_map.mpr ⟨q, hq, rfl⟩)
    exact hapart _ (Driver.mysql_mem_preamble hdriver group) _ hmem heq.symm
  · intro hmysql name hname name' hname' heq
    subst heq
    rcases Driver.isCapitalized_of_mem_preamble hname with hcapital | ⟨hdriver, rfl⟩
    · rcases List.mem_append.mp hname' with hconstant | hfunction
      · obtain ⟨q, -, rfl⟩ := List.mem_map.mp hconstant
        exact functionName_append_ne hcapital q.name "Query" rfl
      · obtain ⟨q, -, rfl⟩ := List.mem_map.mp hfunction
        exact functionName_append_ne hcapital q.name "" String.append_empty
    · rcases List.mem_append.mp hname' with hconstant | hfunction
      · obtain ⟨q, -, hq⟩ := List.mem_map.mp hconstant
        refine ne_of_getLast?_ne ?_ hq
        simp [Query.constantName]
      · obtain ⟨q, hq, hname⟩ := List.mem_map.mp hfunction
        exact hmysql hdriver q hq hname

theorem flatMap_argsNames (queries : List Query) :
    queries.flatMap Query.argsNames = (queries.filter (·.params ≠ [])).map Query.argsName := by
  induction queries with
  | nil => rfl
  | cons q queries ih =>
    rw [List.flatMap_cons, ih, Query.argsNames]
    by_cases h : q.params = []
    · simp [h]
    · simp [h]

theorem flatMap_rowNames (queries : List Query) :
    queries.flatMap Query.rowNames = (queries.filter (·.columns ≠ [])).map Query.rowName := by
  induction queries with
  | nil => rfl
  | cons q queries ih =>
    rw [List.flatMap_cons, ih, Query.rowNames]
    by_cases h : q.columns = []
    · simp [h]
    · simp [h]

/-- Interfaces for arguments and for rows differ in their last letters. -/
theorem nodup_args_rows_iff (queries : List Query) :
    (queries.flatMap Query.argsNames ++ queries.flatMap Query.rowNames).Nodup ↔
      ((queries.filter (·.params ≠ [])).map fun q => typeName q.name).Nodup ∧
        ((queries.filter (·.columns ≠ [])).map fun q => typeName q.name).Nodup := by
  rw [List.nodup_append, flatMap_argsNames, flatMap_rowNames]
  have hargsNodup := nodup_map_append_iff (fun q : Query => typeName q.name) "Args"
    (queries.filter (·.params ≠ []))
  have hrowsNodup := nodup_map_append_iff (fun q : Query => typeName q.name) "Row"
    (queries.filter (·.columns ≠ []))
  constructor
  · rintro ⟨hargs, hrows, -⟩
    exact ⟨hargsNodup.mp hargs, hrowsNodup.mp hrows⟩
  · rintro ⟨hargs, hrows⟩
    refine ⟨hargsNodup.mpr hargs, hrowsNodup.mpr hrows, ?_⟩
    intro name hname name' hname'
    obtain ⟨q, -, rfl⟩ := List.mem_map.mp hname
    obtain ⟨q', -, rfl⟩ := List.mem_map.mp hname'
    apply ne_of_getLast?_ne
    simp [Query.argsName, Query.rowName]

theorem nodup_functionNames_of_isPascal (hnodup : (queries.map (·.name)).Nodup)
    (hpascal : ∀ q ∈ queries, isPascal q.name = true) : (functionNames queries).Nodup := by
  refine (List.nodup_map_iff_inj_on (List.Nodup.of_map _ hnodup)).mpr ?_
  intro q hq q' hq' heq
  have hname := functionName_inj (hpascal q hq) (hpascal q' hq') heq
  exact List.inj_on_of_nodup_map hnodup hq hq' hname

theorem nodup_typeNames_of_isPascal (hnodup : (queries.map (·.name)).Nodup)
    (hpascal : ∀ q ∈ queries, isPascal q.name = true) (p : Query → Bool) :
    ((queries.filter p).map fun q => typeName q.name).Nodup := by
  have hsame : ((queries.filter p).map fun q => typeName q.name) =
      (queries.filter p).map (·.name) := by
    apply List.map_congr_left
    intro q hq
    exact typeName_of_isPascal (hpascal q (List.mem_of_mem_filter hq))
  rw [hsame]
  exact hnodup.sublist (List.filter_sublist.map _)

end

/-- What can be said of the names at the top of a file from the queries in it. -/
structure TopLevel (d : Driver) (queries : List Query) (decls : List Declaration) : Prop where
  /-- The values are distinct just where the functions are, no function is called like a
      constant, and none like the import of that name. -/
  values_iff : (valueNames decls).Nodup ↔
    (functionNames queries).Nodup ∧
    (∀ q ∈ queries, ∀ q' ∈ queries, functionName q.name ≠ functionName q'.name ++ "Query") ∧
    (d.name = "mysql2" → ∀ q ∈ queries, functionName q.name ≠ "mysql")
  /-- The interfaces are distinct just where the type names are, of the queries with
      placeholders and of those with columns. -/
  interfaces_iff : (interfaceNames decls).Nodup ↔
    ((queries.filter (·.params ≠ [])).map fun q => typeName q.name).Nodup ∧
    ((queries.filter (·.columns ≠ [])).map fun q => typeName q.name).Nodup
  /-- Distinct names in Pascal case clash in two ways only. -/
  pascal : (queries.map (·.name)).Nodup → (∀ q ∈ queries, isPascal q.name = true) →
    (interfaceNames decls).Nodup ∧
    ((∀ q ∈ queries, ∀ q' ∈ queries, q.name ≠ q'.name ++ "Query") →
      (d.name = "mysql2" → ∀ q ∈ queries, q.name ≠ "Mysql") → (valueNames decls).Nodup)

namespace Driver

variable {d : Driver} {queries : List Query} {decls : List Declaration}

theorem valueNames_flatMap {dss : List QueryDeclarations}
    (h : List.Forall₂ (fun q ds => q.declarations d = .ok ds) queries dss) :
    valueNames (dss.flatMap (·.toList)) =
      queries.flatMap fun q => [q.constantName, functionName q.name] := by
  induction h with
  | nil => rfl
  | cons hq _ ih =>
    rw [List.flatMap_cons, valueNames_append, ih, Query.valueNames_declarations hq,
      List.flatMap_cons]

theorem interfaceNames_flatMap {dss : List QueryDeclarations}
    (h : List.Forall₂ (fun q ds => q.declarations d = .ok ds) queries dss) :
    interfaceNames (dss.flatMap (·.toList)) =
      queries.flatMap fun q => q.argsNames ++ q.rowNames := by
  induction h with
  | nil => rfl
  | cons hq _ ih =>
    rw [List.flatMap_cons, interfaceNames_append, ih, Query.interfaceNames_declarations hq,
      List.flatMap_cons]

theorem valueNames_fileDeclarations (h : d.fileDeclarations queries = .ok decls) :
    (valueNames decls).Perm (valueNames (d.preamble queries) ++
      (queries.map Query.constantName ++ functionNames queries)) := by
  obtain ⟨dss, hdss, rfl⟩ := map_eq_ok_iff.mp h
  rw [valueNames_append, valueNames_flatMap (mapM_eq_ok_iff.mp hdss), functionNames,
    List.map_eq_flatMap, List.map_eq_flatMap]
  have hpairs := List.flatMap_append_perm queries (fun q => [q.constantName])
    (fun q => [functionName q.name])
  exact hpairs.symm.append_left _

theorem interfaceNames_fileDeclarations (h : d.fileDeclarations queries = .ok decls) :
    (interfaceNames decls).Perm (interfaceNames (d.preamble queries) ++
      (queries.flatMap Query.argsNames ++ queries.flatMap Query.rowNames)) := by
  obtain ⟨dss, hdss, rfl⟩ := map_eq_ok_iff.mp h
  rw [interfaceNames_append, interfaceNames_flatMap (mapM_eq_ok_iff.mp hdss)]
  exact (List.flatMap_append_perm queries _ _).symm.append_left _

theorem nodup_valueNames_iff (h : d.fileDeclarations queries = .ok decls) :
    (valueNames decls).Nodup ↔
      (functionNames queries).Nodup ∧
      (∀ q ∈ queries, ∀ q' ∈ queries, functionName q.name ≠ functionName q'.name ++ "Query") ∧
      (d.name = "mysql2" → ∀ q ∈ queries, functionName q.name ≠ "mysql") := by
  rw [(valueNames_fileDeclarations h).nodup_iff, List.nodup_append, imports_apart_iff,
    nodup_constants_functions_iff, and_assoc]
  exact and_iff_right (nodup_valueNames_preamble d queries)

theorem nodup_interfaceNames_iff (h : d.fileDeclarations queries = .ok decls) :
    (interfaceNames decls).Nodup ↔
      ((queries.filter (·.params ≠ [])).map fun q => typeName q.name).Nodup ∧
      ((queries.filter (·.columns ≠ [])).map fun q => typeName q.name).Nodup := by
  rw [(interfaceNames_fileDeclarations h).nodup_iff, ← nodup_args_rows_iff]
  rcases interfaceNames_preamble d queries with hnone | hclient
  · rw [hnone, List.nil_append]
  · rw [hclient, List.singleton_append, List.nodup_cons]
    apply and_iff_right
    intro hmem
    rcases List.mem_append.mp hmem with hargs | hrow
    · obtain ⟨q, -, hq⟩ := List.mem_flatMap.mp hargs
      rw [Query.argsNames] at hq
      split at hq
      · cases hq
      · refine ne_of_getLast?_ne ?_ (List.mem_singleton.mp hq)
        simp [Query.argsName]
    · obtain ⟨q, -, hq⟩ := List.mem_flatMap.mp hrow
      rw [Query.rowNames] at hq
      split at hq
      · cases hq
      · refine ne_of_getLast?_ne ?_ (List.mem_singleton.mp hq)
        simp [Query.rowName]

theorem topLevel_fileDeclarations (h : d.fileDeclarations queries = .ok decls) :
    TopLevel d queries decls where
  values_iff := nodup_valueNames_iff h
  interfaces_iff := nodup_interfaceNames_iff h
  pascal := by
    intro hnodup hpascal
    constructor
    · rw [nodup_interfaceNames_iff h]
      exact ⟨nodup_typeNames_of_isPascal hnodup hpascal _,
        nodup_typeNames_of_isPascal hnodup hpascal _⟩
    · intro hquery hmysql
      rw [nodup_valueNames_iff h]
      refine ⟨nodup_functionNames_of_isPascal hnodup hpascal, ?_, ?_⟩
      · intro q hq q' hq' heq
        exact hquery q hq q' hq'
          (eq_append_of_functionName_eq (hpascal q hq) (hpascal q' hq') (Or.inr rfl) heq)
      · intro hdriver q hq heq
        exact hmysql hdriver q hq (eq_of_functionName_eq_mysql (hpascal q hq) heq)

/-- The drafts belong to the source files, one to each and in their order. -/
theorem topLevel_drafts {drafts : List Draft} (h : d.drafts queries = .ok drafts) :
    List.Forall₂ (fun filename f => f.name = outputName filename ∧
      TopLevel d (queriesOf queries filename) f.declarations) (sourceFiles queries) drafts := by
  have hdrafts := mapM_eq_ok_iff.mp h
  rw [QueryGroup.ofQueries_eq, List.forall₂_map_left_iff] at hdrafts
  apply hdrafts.imp
  intro filename f hf
  obtain ⟨decls, hdecls, rfl⟩ := map_eq_ok_iff.mp hf
  exact ⟨rfl, topLevel_fileDeclarations hdecls⟩

end Driver

/-! ### Runs -/

namespace Request

/-- **Names at the top of a file.** In every file of a successful run, for the queries of
    its source file: the imports, constants and functions have distinct names exactly if no
    two queries have the same function, no function is named like the constant of a query,
    and none is named like the import `mysql`; the interfaces have distinct names exactly if
    the queries with placeholders have distinct type names and so have those with columns.
    Among distinct names in Pascal case no two interfaces clash, and values only where one
    name is another with `Query` behind it, or where `mysql` is imported and a query is
    named `Mysql`. -/
theorem topLevel_of_generate {r : Request} {out : Response} (h : r.generate = .ok out) :
    ∃ d drafts, r.Writes d drafts out ∧
      List.Forall₂ (fun filename f => f.name = Driver.outputName filename ∧
          TopLevel d (queriesOf r.queries filename) f.declarations)
        (sourceFiles r.queries) drafts := by
  obtain ⟨d, drafts, hwrites⟩ := exists_writes h
  exact ⟨d, drafts, hwrites, Driver.topLevel_drafts hwrites.drafted⟩

/-- Queries with different names in Pascal case. -/
def pascalNames : Request where
  queries :=
    [((Query.plain "GetUser" .one "SELECT name FROM users WHERE id = ?" "users.sql").addParam
        (.ofType "id" "int")).addColumn (.ofType "name" "text"),
     (Query.plain "GetUsers" .many "SELECT name FROM users" "users.sql").addColumn
        (.ofType "name" "text")]
  settings := Text.utf8 "\x7b\"driver\":\"mysql2\"\x7d"

theorem topLevel_of_generate_pascalNames :
    ∃ out, pascalNames.generate = .ok out ∧ ∃ d drafts, pascalNames.Writes d drafts out ∧
      List.Forall₂ (fun filename f => f.name = Driver.outputName filename ∧
          TopLevel d (queriesOf pascalNames.queries filename) f.declarations)
        (sourceFiles pascalNames.queries) drafts ∧
      ∀ f ∈ drafts, (valueNames f.declarations).Nodup ∧ (interfaceNames f.declarations).Nodup := by
  have hdriver : Settings.selectDriver pascalNames.settings = .ok (.mysql2 ⟨false, false⟩) := rfl
  have hsupported : ∀ q ∈ pascalNames.queries,
      (Driver.mysql2 ⟨false, false⟩).Supports q.command := by
    decide
  obtain ⟨out, hrun, -⟩ := exists_generate hdriver hsupported
  obtain ⟨d, drafts, hwrites, hfiles⟩ := topLevel_of_generate hrun
  refine ⟨out, hrun, d, drafts, hwrites, hfiles, ?_⟩
  have hsources : sourceFiles pascalNames.queries = ["users.sql"] := by decide
  have hqueries : queriesOf pascalNames.queries "users.sql" = pascalNames.queries := by decide
  rw [hsources] at hfiles
  cases hfiles with
  | cons hfile hrest =>
    cases hrest
    rw [hqueries] at hfile
    intro f hf
    rw [List.mem_singleton.mp hf]
    obtain ⟨hinterfaces, hvalues⟩ := hfile.2.pascal (by decide) (by decide +kernel)
    exact ⟨hvalues (by decide) (fun _ => by decide), hinterfaces⟩

/-- Two queries of one source file whose names differ in the size of a letter. -/
def letterApart : Request where
  queries :=
    [(Query.plain "GetUser" .one "SELECT name FROM users LIMIT 1" "users.sql").addColumn
        (.ofType "name" "text"),
     (Query.plain "getUser" .one "SELECT id FROM users LIMIT 1" "users.sql").addColumn
        (.ofType "id" "int")]
  settings := Text.utf8 "\x7b\"driver\":\"pg\"\x7d"

/-- Distinct query names need not lead to distinct names in the file. -/
theorem topLevel_clash_letterApart :
    (letterApart.queries.map (·.name)).Nodup ∧
      ∃ out d drafts, letterApart.Writes d drafts out ∧ ∃ f ∈ drafts,
        ¬(valueNames f.declarations).Nodup ∧ ¬(interfaceNames f.declarations).Nodup := by
  have hdriver : Settings.selectDriver letterApart.settings = .ok .pg := rfl
  have hsupported : ∀ q ∈ letterApart.queries, Driver.pg.Supports q.command := by decide
  obtain ⟨out, hrun, -⟩ := exists_generate hdriver hsupported
  obtain ⟨d, drafts, hwrites⟩ := exists_writes hrun
  refine ⟨by decide, out, d, drafts, hwrites, ?_⟩
  have hsources : sourceFiles letterApart.queries = ["users.sql"] := by decide
  have hqueries : queriesOf letterApart.queries "users.sql" = letterApart.queries := by decide
  have hfiles := Driver.topLevel_drafts hwrites.drafted
  rw [hsources] at hfiles
  cases hfiles with
  | @cons _ f _ _ hfile hrest =>
    rw [hqueries] at hfile
    refine ⟨f, List.mem_cons_self, ?_, ?_⟩
    · rw [hfile.2.values_iff]
      exact fun h => absurd h.1 (by decide +kernel)
    · rw [hfile.2.interfaces_iff]
      exact fun h => absurd h.2 (by decide +kernel)

end Request
end QueryClient
