/-
  QueryClient/Proofs/Generation/Exports.lean
  ==========================================
  **What a file exports does not depend on the driver.** To those who import a generated
  file it is a list of exports: constants with their values, interfaces with the names of
  their fields, and functions with their parameters behind the connection.

  That list can be written down from the queries alone (`Query.exports`). Whatever driver
  generates the files and with whatever options, the exports of a query's declarations are
  these (`Query.exports_declarations`), and what the functions of a file share is never
  exported (`Driver.exports_preamble`); so are those of a file (`Driver.exports_drafts`), and
  two runs that succeed on the same queries agree.
-/
import QueryClient.Proofs.Generation.Containment
import QueryClient.Proofs.Script.TemplateLiteral

namespace QueryClient

open Script

/-! ### Exports of a declaration -/

/-- An exported declaration as it is seen from outside: without types of fields, without
    the connection and the result of a function, and without its body. -/
inductive Export where
  | typeAlias (name : String)
  | interface (name : String) (fields : List (String × Bool))
  | constant (c : Constant)
  | function (name : String) (isAsync : Bool) (arguments : List Field)
deriving Repr

namespace Script.Declaration

/-- What a declaration exports, if it exports anything. Each field of an interface has its
    name and whether it may be missing; the first parameter of a function is the
    connection. -/
def export? : Declaration → Option Export
  | .imported _ => none
  | .typeAlias a => if a.exported then some (.typeAlias a.name) else none
  | .interface i =>
    if i.exported then some (.interface i.name (i.fields.map fun f => (f.name, f.optional)))
    else none
  | .constant c => if c.exported then some (.constant c) else none
  | .function f => if f.exported then some (.function f.name f.isAsync f.params.tail) else none

def isExported : Declaration → Bool
  | .imported _ => false
  | .typeAlias a => a.exported
  | .interface i => i.exported
  | .constant c => c.exported
  | .function f => f.exported

theorem isSome_export? (decl : Declaration) : decl.export?.isSome = decl.isExported := by
  cases decl with
  | imported i => rfl
  | typeAlias a => cases h : a.exported <;> simp [export?, isExported, h]
  | interface i => cases h : i.exported <;> simp [export?, isExported, h]
  | constant c => cases h : c.exported <;> simp [export?, isExported, h]
  | function f => cases h : f.exported <;> simp [export?, isExported, h]

theorem isPrefix_render_block (header : String) (body : List Layout) (close : Option String) :
    header.toList <+: (Layout.render [.block header body close]).toList := by
  rw [Layout.render_eq, Layout.linesAll, Layout.lines, List.cons_append, Margin.writeAll_cons,
    Margin.write_zero, String.append_assoc, String.toList_append]
  exact List.prefix_append _ _

/-- The text of a declaration starts with the keyword where it is exported, and in any case
    there follows another word. -/
theorem exists_word_isPrefix_text (decl : Declaration) :
    ∃ word ∈ ["import ", "type ", "interface ", "const ", "async ", "function "],
      (keyword decl.isExported "export" ++ word).toList <+: decl.text.toList := by
  cases decl with
  | imported i =>
    refine ⟨"import ", by decide, ?_⟩
    rw [text, layout, Layout.render_line, Import.text]
    cases i.default? <;> cases i.names <;> simp [isExported, keyword]
  | typeAlias a =>
    refine ⟨"type ", by decide, ?_⟩
    rw [text, layout, Layout.render_line, TypeAlias.text]
    simp [isExported]
  | interface i =>
    refine ⟨"interface ", by decide, ?_⟩
    rw [text, layout, Interface.layout]
    split
    · simp [isExported, Layout.render_line]
    · refine List.IsPrefix.trans ?_ (isPrefix_render_block _ _ _)
      simp [isExported]
  | constant c =>
    refine ⟨"const ", by decide, ?_⟩
    rw [Constant.text_eq, Constant.head]
    simp [isExported]
  | function f =>
    have hsignature : f.signature.toList <+: (Declaration.function f).text.toList :=
      isPrefix_render_block _ _ _
    cases hasync : f.isAsync with
    | true =>
      refine ⟨"async ", by decide, List.IsPrefix.trans ?_ hsignature⟩
      have hkeyword : keyword true "async" = "async " := rfl
      simp [Function.signature, hasync, hkeyword, isExported]
    | false =>
      refine ⟨"function ", by decide, List.IsPrefix.trans ?_ hsignature⟩
      have hkeyword : keyword false "async" = "" := rfl
      simp [Function.signature, hasync, hkeyword, isExported]

/-- What is exported can be told from the text: it starts with the keyword. -/
theorem isSome_export?_iff (decl : Declaration) :
    decl.export?.isSome = true ↔ "export ".toList <+: decl.text.toList := by
  obtain ⟨word, hword, htext⟩ := exists_word_isPrefix_text decl
  rw [isSome_export?]
  cases h : decl.isExported with
  | true =>
    rw [h, keyword, if_pos rfl, String.toList_append] at htext
    exact iff_of_true rfl ((List.prefix_append _ _).trans htext)
  | false =>
    rw [h, keyword, if_neg Bool.false_ne_true, String.empty_append] at htext
    refine iff_of_false Bool.false_ne_true ?_
    intro hkeyword
    -- two words that one text starts with agree as far as both reach
    have hhead : ∀ w ∈ ["import ", "type ", "interface ", "const ", "async ", "function "],
        ¬w.toList <+: "export ".toList ∧ ¬"export ".toList <+: w.toList := by decide
    rcases List.prefix_or_prefix_of_prefix htext hkeyword with hpre | hpre
    · exact (hhead word hword).1 hpre
    · exact (hhead word hword).2 hpre

end Script.Declaration

/-- What declarations export, in their order. -/
def exportsOf (decls : List Declaration) : List Export := decls.filterMap Declaration.export?

theorem exportsOf_append (decls rest : List Declaration) :
    exportsOf (decls ++ rest) = exportsOf decls ++ exportsOf rest := List.filterMap_append

/-! ### Exports of a query -/

/-- An interface that has a field for each item, where there are items. -/
theorem exportsOf_interface {α : Type} {fields : List String} {items : List α} {name : String}
    (hlength : fields.length = items.length) (type : α → TypeExpr) :
    exportsOf ((if items.isEmpty then none
      else some (Interface.mk name
        (List.zipWith (fun field a => Field.required field (type a)) fields items)
          true)).map Declaration.interface).toList =
      if items = [] then [] else [.interface name (fields.map fun f => (f, false))] := by
  have hfields : (List.zipWith (fun field a => Field.required field (type a)) fields items).map
      (fun f => (f.name, f.optional)) = fields.map fun f => (f, false) := by
    rw [← List.map_uncurry_zip_eq_zipWith, List.map_map]
    nth_rewrite 2 [← List.map_fst_zip (Nat.le_of_eq hlength)]
    rw [List.map_map]
    rfl
  rw [← hfields]
  cases items <;> rfl

namespace Query

/-- What is exported for a query, told from the query alone: its constant, the interfaces of
    its arguments and of a row, and its function, which takes the arguments if there are
    any. -/
def exports (q : Query) : List Export :=
  .constant ⟨q.constantName, .template q.annotatedText, none, true⟩ ::
    (if q.params = [] then [] else [.interface q.argsName (q.argFields.map fun f => (f, false))]) ++
    (if q.columns = [] then [] else [.interface q.rowName (q.rowFields.map fun f => (f, false))]) ++
    [.function (Naming.functionName q.name) true
      (if q.params = [] then [] else [.required "args" (.named q.argsName)])]

/-- The declarations of a query export the same for every driver. -/
theorem exportsOf_declarations {d : Driver} {q : Query} {ds : QueryDeclarations}
    (h : q.declarations d = .ok ds) : exportsOf ds.toList = q.exports := by
  obtain ⟨f, hf, rfl⟩ := declarations_eq_ok_iff.mp h
  obtain ⟨returns, setup?, body, rfl⟩ := Driver.queryFunction_eq_wrap hf
  have hconstant (c : Constant) (decls : List Declaration) (hc : c.exported = true) :
      exportsOf (.constant c :: decls) = .constant c :: exportsOf decls :=
    List.filterMap_cons_some (if_pos hc)
  have hfunction : exportsOf [.function (d.wrap q.plan returns setup? body).function] =
      [.function (Naming.functionName q.name) true
        (if q.params = [] then [] else [.required "args" (.named q.argsName)])] := by
    change [Export.function _ _ ((if q.params.isEmpty then none else some q.argsName).map
      fun t => Field.required "args" (.named t)).toList] = _
    cases q.params <;> rfl
  rw [QueryDeclarations.toList, exportsOf_append, exportsOf_append, hconstant _ _ rfl,
    argsInterface?, exportsOf_interface (length_argFields q), rowInterface?,
    exportsOf_interface (length_rowFields q), hfunction, exports]

end Query

/-! ### Exports of a file -/

namespace Driver

variable {d : Driver} {queries : List Query}

/-- The imports and the helpers that the functions of a file share stay inside. -/
theorem exportsOf_preamble (d : Driver) (queries : List Query) :
    exportsOf (d.preamble queries) = [] := by
  cases d with
  | pg =>
    rw [preamble]
    cases Driver.pg.mentionsInterval queries <;> rfl
  | postgres => rfl
  | mysql2 o => rfl
  | betterSqlite3 safe => rfl
  | turso => rfl

theorem exportsOf_flatMap {dss : List QueryDeclarations}
    (h : List.Forall₂ (fun q ds => q.declarations d = .ok ds) queries dss) :
    exportsOf (dss.flatMap (·.toList)) = queries.flatMap Query.exports := by
  induction h with
  | nil => rfl
  | cons hq _ ih =>
    rw [List.flatMap_cons, exportsOf_append, ih, Query.exportsOf_declarations hq,
      List.flatMap_cons]

/-- The drafts of a run by what they export: one file for each source file, in their order,
    and in it the exports of its queries. -/
theorem exportsOf_drafts {drafts : List Draft} (h : d.drafts queries = .ok drafts) :
    drafts.map (fun f => (f.name, exportsOf f.declarations)) =
      (sourceFiles queries).map fun filename =>
        (outputName filename, (queriesOf queries filename).flatMap Query.exports) := by
  have hdrafts := mapM_eq_ok_iff.mp h
  rw [QueryGroup.ofQueries_eq, List.forall₂_map_left_iff] at hdrafts
  rw [eq_comm, ← List.forall₂_eq_eq_eq, List.forall₂_map_left_iff, List.forall₂_map_right_iff]
  apply hdrafts.imp
  intro filename f hf
  obtain ⟨decls, hdecls, rfl⟩ := map_eq_ok_iff.mp hf
  obtain ⟨dss, hdss, rfl⟩ := map_eq_ok_iff.mp hdecls
  rw [exportsOf_append, exportsOf_preamble, List.nil_append,
    exportsOf_flatMap (mapM_eq_ok_iff.mp hdss)]

end Driver

/-! ### Two runs -/

namespace Request

/-- **Exports do not depend on the driver.** Two runs on the same queries, with any settings,
    that both succeed write files of the same names in the same order. In each of them the
    two runs export the same: constants with their values, interfaces with the names of
    their fields, functions with their parameters behind the connection, all of them in one
    order. These exports are the declarations whose texts start with the keyword; all others
    are the runs' own. -/
theorem exports_of_generate {r r' : Request} {out out' : Response}
    (hqueries : r.queries = r'.queries) (h : r.generate = .ok out) (h' : r'.generate = .ok out') :
    ∃ d d' drafts drafts', r.Writes d drafts out ∧ r'.Writes d' drafts' out' ∧
      out.files.map (·.name) = out'.files.map (·.name) ∧
      List.Forall₂ (fun f f' => f.name = f'.name ∧
        exportsOf f.declarations = exportsOf f'.declarations) drafts drafts' ∧
      ∀ f ∈ drafts ++ drafts', ∀ decl ∈ f.declarations,
        decl.export?.isSome = true ↔ "export ".toList <+: decl.text.toList := by
  obtain ⟨d, drafts, hwrites⟩ := exists_writes h
  obtain ⟨d', drafts', hwrites'⟩ := exists_writes h'
  have hsame : drafts.map (fun f => (f.name, exportsOf f.declarations)) =
      drafts'.map fun f => (f.name, exportsOf f.declarations) := by
    rw [Driver.exportsOf_drafts hwrites.drafted, hqueries,
      ← Driver.exportsOf_drafts hwrites'.drafted]
  have hnames : out.files.map (·.name) = out'.files.map (·.name) := by
    have hfst := congrArg (List.map Prod.fst) hsame
    rw [hwrites.files, hwrites'.files]
    simpa [Function.comp_def, Draft.write] using hfst
  rw [← List.forall₂_eq_eq_eq, List.forall₂_map_left_iff, List.forall₂_map_right_iff] at hsame
  refine ⟨d, d', drafts, drafts', hwrites, hwrites', hnames, ?_, ?_⟩
  · apply hsame.imp
    intro f f' heq
    exact Prod.mk.inj heq
  · intro f _ decl _
    exact decl.isSome_export?_iff

/-- Queries of two source files, in turns: with a placeholder, with columns of types that
    drivers map to different types, and one for an inserted id. -/
def inTurns : List Query :=
  [(Query.plain "AddUser" .execLastId "INSERT INTO users VALUES (?)" "users.sql").addParam
      (.ofType "name" "text"),
   (Query.plain "ListPosts" .many "SELECT id, body FROM posts" "posts.sql").addColumn
      (.ofType "id" "bigint") |>.addColumn (.ofType "body" "blob"),
   .plain "DropUsers" .exec "DELETE FROM users" "users.sql"]

theorem exports_of_generate_inTurns :
    let r : Request := ⟨inTurns, Text.utf8
      "\x7b\"driver\":\"mysql2\",\"mysql2\":\x7b\"supportBigNumbers\":true\x7d\x7d"⟩
    let r' : Request := ⟨inTurns, Text.utf8 "\x7b\"driver\":\"turso\"\x7d"⟩
    r.queries = r'.queries ∧ ∃ out out', r.generate = .ok out ∧ r'.generate = .ok out' ∧
      ∃ d d' drafts drafts', r.Writes d drafts out ∧ r'.Writes d' drafts' out' ∧
        out.files.map (·.name) = out'.files.map (·.name) ∧
        List.Forall₂ (fun f f' => f.name = f'.name ∧
          exportsOf f.declarations = exportsOf f'.declarations) drafts drafts' ∧
        ∀ f ∈ drafts ++ drafts', ∀ decl ∈ f.declarations,
          decl.export?.isSome = true ↔ "export ".toList <+: decl.text.toList := by
  intro r r'
  have hparse : Settings.parse r.settings = .ok ⟨some "mysql2", none, ⟨true, false⟩, false⟩ := by
    decide +kernel
  have hparse' : Settings.parse r'.settings = .ok ⟨some "turso", none, ⟨false, false⟩, false⟩ := by
    decide +kernel
  have hdriver := Settings.selectDriver_eq_ok hparse (d := .mysql2 ⟨true, false⟩) rfl
  have hdriver' := Settings.selectDriver_eq_ok hparse' (d := .turso) rfl
  obtain ⟨out, hrun, -⟩ := exists_generate hdriver (by decide)
  obtain ⟨out', hrun', -⟩ := exists_generate hdriver' (by decide)
  have hqueries : r.queries = r'.queries := rfl
  exact ⟨hqueries, out, out', hrun, hrun', exports_of_generate hqueries hrun hrun'⟩

end Request
end QueryClient
