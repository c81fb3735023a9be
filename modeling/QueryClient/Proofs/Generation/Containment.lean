/-
  QueryClient/Proofs/Generation/Containment.lean
  ==============================================
  **No query writes code.** Names of queries, columns and types and the texts of queries
  may be any text at all. In a generated file the text of a query stands in the constant
  for it, and every other declaration is contained: nothing that a name consists of can
  open a literal, close a bracket of the code around it or hide in other letters
  (`Query.harmless_declarations`).

  What is left of a file without its constants is generated without looking at the texts.
  Two runs on queries that differ in their texts only are compared; each stage gives the
  same for both, from the declarations of one query up to the files of a run
  (`Driver.map_code_drafts`).
-/
import QueryClient.Proofs.Driver.Containment
import QueryClient.Proofs.Generation.Refusal
import QueryClient.Proofs.Generation.Wiring

namespace QueryClient

open Script
open Naming (isIdentifier)

/-! ### Declarations -/

namespace Script.Declaration

/-- The names that a declaration gives: its own, and those of what it imports, of its
    fields or of its parameters. -/
def names : Declaration → List String
  | .imported i => i.default?.toList ++ i.names
  | .typeAlias a => [a.name]
  | .interface i => i.name :: i.fields.map Field.name
  | .constant c => [c.name]
  | .function f => f.name :: f.params.map Field.name

def isConstant : Declaration → Bool
  | .constant _ => true
  | _ => false

/-- A declaration of contained source text, with identifiers for names. -/
structure Plain (decl : Declaration) : Prop where
  notConstant : decl.isConstant = false
  text : Contained decl.text
  names : ∀ name ∈ decl.names, isIdentifier name.toList = true

/-- A declaration is harmless if it is contained or is the constant that holds the text of
    one of the queries, and gives no names but identifiers. -/
structure Harmless (queries : List Query) (decl : Declaration) : Prop where
  text : Contained decl.text ∨ ∃ q ∈ queries,
    decl = .constant ⟨q.constantName, .template q.annotatedText, none, true⟩
  names : ∀ name ∈ decl.names, isIdentifier name.toList = true

theorem Plain.harmless {decl : Declaration} (h : decl.Plain) (queries : List Query) :
    decl.Harmless queries := ⟨Or.inl h.text, h.names⟩

theorem Harmless.mono {queries queries' : List Query} {decl : Declaration}
    (h : decl.Harmless queries) (hsub : queries ⊆ queries') : decl.Harmless queries' :=
  ⟨h.text.imp_right fun ⟨q, hq, hdecl⟩ => ⟨q, hsub hq, hdecl⟩, h.names⟩

theorem plain_imported {i : Import} (hlibrary : Contained i.library)
    (hnames : ∀ name ∈ i.default?.toList ++ i.names, isIdentifier name.toList = true) :
    (imported i).Plain := by
  have hcontained : ∀ name ∈ i.default?.toList ++ i.names, Contained name := fun name hname =>
    contained_of_isIdentifier (hnames name hname)
  obtain ⟨hdefault, hlist⟩ := List.forall_mem_append.mp hcontained
  exact ⟨rfl, Layout.contained_render (Layout.contained_line (Import.contained_text hlibrary
    (fun name hname => hdefault name (Option.mem_toList.mpr hname)) hlist)), hnames⟩

theorem plain_typeAlias {a : TypeAlias} (hname : isIdentifier a.name.toList = true)
    (htype : ∀ name ∈ a.type.names, Contained name) : (typeAlias a).Plain :=
  ⟨rfl, Layout.contained_render (Layout.contained_line
    (TypeAlias.contained_text (contained_of_isIdentifier hname) htype)),
    List.forall_mem_singleton.mpr hname⟩

theorem plain_interface {i : Interface} (hname : isIdentifier i.name.toList = true)
    (hfields : ∀ f ∈ i.fields, isIdentifier f.name.toList = true)
    (htypes : ∀ f ∈ i.fields, ∀ name ∈ f.type.names, Contained name) : (interface i).Plain := by
  have hcontained : ∀ f ∈ i.fields, Contained f.text := fun f hf =>
    Field.contained_text (contained_of_isIdentifier (hfields f hf)) (htypes f hf)
  exact ⟨rfl, Layout.contained_render
    (Interface.contained_layout (contained_of_isIdentifier hname) hcontained),
    List.forall_mem_cons.mpr ⟨hname, List.forall_mem_map.mpr hfields⟩⟩

end Script.Declaration

/-- The declarations apart from constants. -/
def codeOf (decls : List Declaration) : List Declaration := decls.filter fun d => !d.isConstant

/-! ### One query -/

namespace Query

theorem isIdentifier_argsName (q : Query) : isIdentifier q.argsName.toList = true := by
  rw [argsName, String.toList_append]
  exact Naming.isIdentifier_append (Naming.isIdentifier_typeName q.name) (by decide)

theorem isIdentifier_rowName (q : Query) : isIdentifier q.rowName.toList = true := by
  rw [rowName, String.toList_append]
  exact Naming.isIdentifier_append (Naming.isIdentifier_typeName q.name) (by decide)

theorem proper_plan (q : Query) : q.plan.Proper where
  toNamed := named_plan q
  name := Naming.isIdentifier_functionName q.name
  argsType t ht := by
    have hname := (Option.ite_none_left_eq_some.mp ht).2
    rw [← Option.some.inj hname]
    exact isIdentifier_argsName q
  rowType t ht := by
    have hname := (Option.ite_none_left_eq_some.mp ht).2
    rw [← Option.some.inj hname]
    exact isIdentifier_rowName q

end Query

/-- The fields of an interface that has one for each item. -/
theorem exists_of_mem_zipWith {α : Type} {fields : List String} {items : List α}
    {type : α → TypeExpr} {f : Field}
    (h : f ∈ List.zipWith (fun field a => Field.required field (type a)) fields items) :
    f.name ∈ fields ∧ ∃ a, f.type = type a := by
  rw [← List.map_uncurry_zip_eq_zipWith, List.mem_map] at h
  obtain ⟨⟨field, a⟩, hmem, rfl⟩ := h
  exact ⟨(List.of_mem_zip hmem).1, a, rfl⟩

theorem plain_zipWith {α : Type} {name : String} {fields : List String} {items : List α}
    {type : α → TypeExpr} (hname : isIdentifier name.toList = true)
    (hfields : ∀ field ∈ fields, isIdentifier field.toList = true)
    (htypes : ∀ a, ∀ n ∈ (type a).names, Contained n) :
    (Declaration.interface ⟨name,
      List.zipWith (fun field a => Field.required field (type a)) fields items, true⟩).Plain := by
  refine Declaration.plain_interface hname ?_ ?_
  · intro f hf
    exact hfields _ (exists_of_mem_zipWith hf).1
  · intro f hf
    obtain ⟨-, a, ha⟩ := exists_of_mem_zipWith hf
    rw [ha]
    exact htypes a

namespace Query

variable {d : Driver} {q : Query} {ds : QueryDeclarations}

theorem plain_args {i : Interface} (h : q.argsInterface? d = some i) :
    (Declaration.interface i).Plain := by
  rw [argsInterface?, Option.ite_none_left_eq_some] at h
  rw [← Option.some.inj h.2]
  exact plain_zipWith (isIdentifier_argsName q) (named_plan q).argNames
    fun p : Parameter => Driver.contained_names_columnType d p.column?

theorem plain_row {i : Interface} (h : q.rowInterface? d = some i) :
    (Declaration.interface i).Plain := by
  rw [rowInterface?, Option.ite_none_left_eq_some] at h
  rw [← Option.some.inj h.2]
  exact plain_zipWith (isIdentifier_rowName q) (named_plan q).columnNames
    fun c => Driver.contained_names_columnType d (some c)

theorem plain_function {f : QueryFunction} (h : d.queryFunction q.command q.plan = .ok f) :
    (Declaration.function f.function).Plain := by
  have hsealed := Driver.sealed_queryFunction (proper_plan q) h
  exact ⟨rfl, Layout.contained_render hsealed.contained_layout,
    List.forall_mem_cons.mpr ⟨hsealed.name, List.forall_mem_map.mpr hsealed.paramNames⟩⟩

/-- Whatever a query, its columns and their types are called and whatever its text, all of
    its declarations are harmless. -/
theorem harmless_declarations (h : q.declarations d = .ok ds) :
    ∀ decl ∈ ds.toList, decl.Harmless [q] := by
  have hconstant : (Declaration.constant
      ⟨q.constantName, .template q.annotatedText, none, true⟩).Harmless [q] :=
    ⟨Or.inr ⟨q, List.mem_singleton_self q, rfl⟩,
      List.forall_mem_singleton.mpr (isIdentifier_constantName q)⟩
  exact forall_declarations h hconstant (fun i hi => (plain_args hi).harmless [q])
    (fun i hi => (plain_row hi).harmless [q]) (fun f hf => (plain_function hf).harmless [q])

end Query

/-! ### One file -/

namespace Driver

/-- What the functions of a file share is fixed, whatever the queries are called. -/
theorem plain_preamble (d : Driver) (queries : List Query) :
    ∀ decl ∈ d.preamble queries, decl.Plain := by
  cases d with
  | pg =>
    have hclient : (Declaration.interface ⟨"Client", [.required "query"
        (.named "(config: QueryArrayConfig) => Promise<QueryArrayResult>")], false⟩).Plain :=
      Declaration.plain_interface (by decide) (by decide) (by decide)
    refine List.forall_mem_cons.mpr ⟨Declaration.plain_imported (by decide) (by decide),
      List.forall_mem_append.mpr ⟨?_, List.forall_mem_singleton.mpr hclient⟩⟩
    cases Driver.pg.mentionsInterval queries with
    | false => exact List.forall_mem_nil _
    | true =>
      exact List.forall_mem_singleton.mpr (Declaration.plain_imported (by decide) (by decide))
  | postgres =>
    exact List.forall_mem_singleton.mpr (Declaration.plain_imported (by decide) (by decide))
  | mysql2 o =>
    have hclient : (Declaration.typeAlias ⟨"Client",
        .union [.named "mysql.Connection", .named "mysql.Pool"], false⟩).Plain :=
      Declaration.plain_typeAlias (by decide) (by decide)
    refine List.forall_mem_cons.mpr
      ⟨Declaration.plain_imported (by decide : Contained "mysql2/promise") ?_,
        List.forall_mem_singleton.mpr hclient⟩
    dsimp only
    cases queries.any (·.command == .execLastId) <;> decide
  | betterSqlite3 safe =>
    exact List.forall_mem_singleton.mpr (Declaration.plain_imported (by decide) (by decide))
  | turso =>
    exact List.forall_mem_singleton.mpr (Declaration.plain_imported (by decide) (by decide))

theorem harmless_fileDeclarations {d : Driver} {queries : List Query} {decls : List Declaration}
    (h : d.fileDeclarations queries = .ok decls) : ∀ decl ∈ decls, decl.Harmless queries := by
  refine forall_fileDeclarations h ?_ ?_
  · intro decl hdecl
    exact (plain_preamble d queries decl hdecl).harmless queries
  · intro q hq ds hok decl hdecl
    exact (Query.harmless_declarations hok decl hdecl).mono
      (List.cons_subset.mpr ⟨hq, List.nil_subset _⟩)

end Driver

/-! ### Files without texts -/

/-- The query with its text left out. -/
def Query.withoutText (q : Query) : Query := { q with text := "" }

/-- A file before it is written down. -/
structure Draft where
  name : String
  declarations : List Declaration
deriving Repr

namespace Draft

def write (f : Draft) : OutputFile :=
  ⟨f.name, Text.utf8 (SourceFile.text ⟨some banner, f.declarations⟩)⟩

/-- The draft without its constants. -/
def code (f : Draft) : Draft := ⟨f.name, codeOf f.declarations⟩

end Draft

namespace Driver

/-- The files of a run before they are written down. -/
def draft (d : Driver) (g : QueryGroup) : Except NoInsertedId Draft :=
  (d.fileDeclarations g.queries).map fun decls => ⟨outputName g.filename, decls⟩

def drafts (d : Driver) (queries : List Query) : Except NoInsertedId (List Draft) :=
  (QueryGroup.ofQueries queries).mapM d.draft

/-- A run writes its drafts down. -/
theorem generate_eq_drafts (d : Driver) (queries : List Query) :
    d.generate queries = (d.drafts queries).map fun fs => ⟨fs.map Draft.write⟩ := by
  have hfile : d.file = fun g => (d.draft g).map Draft.write := by
    funext g
    rw [file, draft, map_map_except]
    rfl
  rw [generate, drafts, hfile, mapM_map_except, map_map_except]

end Driver

/-! ### Queries that differ in their texts -/

/-- The declarations of a query apart from its constant. -/
def QueryDeclarations.code (ds : QueryDeclarations) : List Declaration := codeOf ds.toList

theorem Query.map_code_declarations (d : Driver) (q : Query) :
    (q.declarations d).map QueryDeclarations.code =
      (q.withoutText.declarations d).map QueryDeclarations.code := by
  have hfunction : d.queryFunction q.withoutText.command q.withoutText.plan =
      d.queryFunction q.command q.plan := rfl
  rw [declarations, declarations, hfunction, map_map_except, map_map_except]
  rfl

namespace Driver

theorem preamble_withoutText (d : Driver) (queries : List Query) :
    d.preamble (queries.map Query.withoutText) = d.preamble queries := by
  cases d with
  | pg =>
    have hinterval : Driver.pg.mentionsInterval (queries.map Query.withoutText) =
        Driver.pg.mentionsInterval queries := List.any_map
    rw [preamble, hinterval]
    rfl
  | postgres => rfl
  | mysql2 o =>
    have hany : (queries.map Query.withoutText).any (·.command == .execLastId) =
        queries.any (·.command == .execLastId) := List.any_map
    rw [preamble, hany]
    rfl
  | betterSqlite3 safe => rfl
  | turso => rfl

theorem codeOf_preamble (d : Driver) (queries : List Query) :
    codeOf (d.preamble queries) = d.preamble queries := by
  rw [codeOf, List.filter_eq_self]
  intro decl hdecl
  rw [(plain_preamble d queries decl hdecl).notConstant]
  rfl

theorem map_code_fileDeclarations (d : Driver) (queries : List Query) :
    (d.fileDeclarations queries).map codeOf =
      (d.fileDeclarations (queries.map Query.withoutText)).map codeOf := by
  -- the code of a file, given what each of its queries adds
  have hcode (qs : List Query) : (d.fileDeclarations qs).map codeOf =
      (qs.mapM fun q : Query => (q.declarations d).map QueryDeclarations.code).map
        fun codes => d.preamble qs ++ codes.flatten := by
    rw [fileDeclarations, mapM_map_except, map_map_except, map_map_except]
    congr 1
    funext dss
    rw [codeOf, List.filter_append, List.filter_flatMap, ← List.flatMap_def]
    exact congrArg (· ++ _) (codeOf_preamble d qs)
  have hqueries : (queries.mapM fun q : Query => (q.declarations d).map QueryDeclarations.code) =
      queries.mapM fun q => (q.withoutText.declarations d).map QueryDeclarations.code :=
    congrArg queries.mapM (funext (Query.map_code_declarations d))
  rw [hcode, hcode, preamble_withoutText, List.mapM_map, hqueries]
  rfl

theorem map_code_draft (d : Driver) (g : QueryGroup) :
    (d.draft g).map Draft.code =
      (d.draft ⟨g.filename, g.queries.map Query.withoutText⟩).map Draft.code := by
  have hcode (qs : List Query) : (d.draft ⟨g.filename, qs⟩).map Draft.code =
      ((d.fileDeclarations qs).map codeOf).map fun decls => ⟨outputName g.filename, decls⟩ := by
    rw [draft, map_map_except, map_map_except]
    rfl
  rw [hcode, hcode, ← map_code_fileDeclarations]

/-- The code of all files of a run, without looking at the texts. -/
theorem map_code_drafts (d : Driver) (queries : List Query) :
    (d.drafts queries).map (List.map Draft.code) =
      (d.drafts (queries.map Query.withoutText)).map (List.map Draft.code) := by
  have hfilename (q : Query) : q.withoutText.filename = q.filename := rfl
  rw [drafts, drafts, QueryGroup.ofQueries_map hfilename, ← mapM_map_except,
    ← mapM_map_except, List.mapM_map]
  exact congrArg (QueryGroup.ofQueries queries).mapM (funext (map_code_draft d))

theorem harmless_drafts {d : Driver} {queries : List Query} {drafts : List Draft}
    (h : d.drafts queries = .ok drafts) :
    ∀ f ∈ drafts, ∀ decl ∈ f.declarations, decl.Harmless queries := by
  intro f hf
  obtain ⟨g, hg, hdraft⟩ := exists_of_mem_mapM h hf
  obtain ⟨decls, hdecls, rfl⟩ := map_eq_ok_iff.mp hdraft
  rw [QueryGroup.ofQueries_eq] at hg
  obtain ⟨filename, -, rfl⟩ := List.mem_map.mp hg
  intro decl hdecl
  exact (harmless_fileDeclarations hdecls decl hdecl).mono (List.filter_subset_self _)

end Driver

/-! ### Runs -/

namespace Request

/-- A successful run: the driver that its settings select, the drafts of its files, and
    what comes out. -/
structure Writes (r : Request) (d : Driver) (drafts : List Draft) (out : Response) : Prop where
  driver : Settings.selectDriver r.settings = .ok d
  drafted : d.drafts r.queries = .ok drafts
  result : r.generate = .ok out
  files : out.files = drafts.map Draft.write

theorem writes_of_drafts {r : Request} {d : Driver} {drafts : List Draft}
    (hdriver : Settings.selectDriver r.settings = .ok d)
    (hdrafts : d.drafts r.queries = .ok drafts) :
    r.Writes d drafts ⟨drafts.map Draft.write⟩ := by
  refine ⟨hdriver, hdrafts, ?_, rfl⟩
  rw [generate_of_selectDriver hdriver, Driver.generate_eq_drafts, hdrafts]
  rfl

theorem exists_writes {r : Request} {out : Response} (h : r.generate = .ok out) :
    ∃ d drafts, r.Writes d drafts out := by
  cases hdriver : Settings.selectDriver r.settings with
  | error f =>
    rw [generate, hdriver] at h
    cases h
  | ok d =>
    cases hdrafts : d.drafts r.queries with
    | error e =>
      rw [generate_of_selectDriver hdriver, Driver.generate_eq_drafts, hdrafts] at h
      cases h
    | ok drafts =>
      have hwrites := writes_of_drafts hdriver hdrafts
      cases h.symm.trans hwrites.result
      exact ⟨d, drafts, hwrites⟩

/-- **No query writes code.** In every file of a successful run, whatever queries, columns
    and types are called and whatever the texts of the queries: each declaration is plain
    source text with all brackets in their places, unless it is the constant that holds the
    text of a query, and all names are identifiers. Any other texts of the same queries
    give a successful run with the same files, up to these constants. -/
theorem generate_contained {r : Request} {out : Response} (h : r.generate = .ok out) :
    ∃ d drafts, r.Writes d drafts out ∧
      (∀ f ∈ drafts, ∀ decl ∈ f.declarations, decl.Harmless r.queries) ∧
      ∀ r' : Request, r'.settings = r.settings →
        r'.queries.map Query.withoutText = r.queries.map Query.withoutText →
          ∃ drafts' out', r'.Writes d drafts' out' ∧
            drafts'.map Draft.code = drafts.map Draft.code := by
  obtain ⟨d, drafts, hwrites⟩ := exists_writes h
  refine ⟨d, drafts, hwrites, Driver.harmless_drafts hwrites.drafted, ?_⟩
  intro r' hsettings hqueries
  have hcode : (d.drafts r'.queries).map (List.map Draft.code) = .ok (drafts.map Draft.code) := by
    rw [Driver.map_code_drafts, hqueries, ← Driver.map_code_drafts, hwrites.drafted]
    rfl
  obtain ⟨drafts', hdrafts', heq⟩ := map_eq_ok_iff.mp hcode
  exact ⟨drafts', _, writes_of_drafts (hsettings ▸ hwrites.driver) hdrafts', heq.symm⟩

/-- A query whose names and text would end a literal, close brackets or open a comment if
    they were written as they are. -/
def intruding : Request where
  queries := [((Query.plain "a`; \x7d)] //" .many "`; \x7d) /* SELECT 1" "q.sql").addParam
    (.ofType "x\n(" "]\x7d.`text")).addColumn (.ofType "\"[é" "int4[")]
  settings := Text.utf8 "\x7b\"driver\":\"pg\"\x7d"

theorem generate_contained_intruding :
    ∃ out, intruding.generate = .ok out ∧ ∃ d drafts, intruding.Writes d drafts out ∧
      (∀ f ∈ drafts, ∀ decl ∈ f.declarations, decl.Harmless intruding.queries) ∧
      ∀ r' : Request, r'.settings = intruding.settings →
        r'.queries.map Query.withoutText = intruding.queries.map Query.withoutText →
          ∃ drafts' out', r'.Writes d drafts' out' ∧
            drafts'.map Draft.code = drafts.map Draft.code := by
  have hdriver : Settings.selectDriver intruding.settings = .ok .pg := rfl
  have hsupported : ∀ q ∈ intruding.queries, Driver.pg.Supports q.command := by decide
  obtain ⟨out, hout⟩ := Driver.exists_generate hsupported
  have hrun : intruding.generate = .ok out := by
    rw [generate_of_selectDriver hdriver, hout]
    rfl
  exact ⟨out, hrun, generate_contained hrun⟩

end Request
end QueryClient
