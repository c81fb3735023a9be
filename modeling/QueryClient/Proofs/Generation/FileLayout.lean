/-
  QueryClient/Proofs/Generation/FileLayout.lean
  =============================================
  **The layout of a generated file.** A file is its banner and its declarations, with an
  empty line between neighbours. It has no empty lines besides, apart from those in the
  texts of queries: a constant shows its text as it is, and every other declaration is
  written without empty lines (`Driver.solid_or_constant`). So the layout does not depend
  on what the texts look like, however many empty lines they have and however they end.
-/
import QueryClient.Proofs.Driver.Lines
import QueryClient.Proofs.Generation.Containment

namespace QueryClient

open Script

/-! ### Declarations -/

theorem solid_imported {i : Import} (hlibrary : Unbroken i.library)
    (hnames : ∀ name ∈ i.default?.toList ++ i.names, Unbroken name) :
    Layout.Solid (Declaration.imported i).layout := by
  obtain ⟨hdefault, hlist⟩ := List.forall_mem_append.mp hnames
  refine Layout.solid_line (Import.isLine_text hlibrary ?_ hlist)
  intro name hname
  exact hdefault name (Option.mem_toList.mpr hname)

theorem solid_zipWith {α : Type} {name : String} {fields : List String} {items : List α}
    {type : α → TypeExpr} (hname : Unbroken name) (hfields : ∀ field ∈ fields, Unbroken field)
    (htypes : ∀ a, (type a).names ⊆ Driver.typeNames) :
    Layout.Solid (Declaration.interface ⟨name,
      List.zipWith (fun field a => Field.required field (type a)) fields items, true⟩).layout := by
  have hlisted : ∀ n ∈ Driver.typeNames, Unbroken n := by decide
  refine Interface.solid_layout hname ?_
  intro f hf
  obtain ⟨hfield, a, ha⟩ := exists_of_mem_zipWith hf
  refine Field.unbroken_text (hfields f.name hfield) ?_
  intro n hn
  rw [ha] at hn
  exact hlisted n (htypes a hn)

namespace Query

variable {d : Driver} {q : Query}

theorem solid_args {i : Interface} (h : q.argsInterface? d = some i) :
    Layout.Solid (Declaration.interface i).layout := by
  rw [argsInterface?, Option.ite_none_left_eq_some] at h
  rw [← Option.some.inj h.2]
  refine solid_zipWith (unbroken_of_isIdentifier (isIdentifier_argsName q)) ?_
    fun p : Parameter => d.names_columnType_subset p.column?
  intro field hfield
  exact unbroken_of_isIdentifier ((named_plan q).argNames field hfield)

theorem solid_row {i : Interface} (h : q.rowInterface? d = some i) :
    Layout.Solid (Declaration.interface i).layout := by
  rw [rowInterface?, Option.ite_none_left_eq_some] at h
  rw [← Option.some.inj h.2]
  refine solid_zipWith (unbroken_of_isIdentifier (isIdentifier_rowName q)) ?_
    fun c => d.names_columnType_subset (some c)
  intro field hfield
  exact unbroken_of_isIdentifier ((named_plan q).columnNames field hfield)

end Query

namespace Driver

theorem solid_preamble (d : Driver) (queries : List Query) :
    ∀ decl ∈ d.preamble queries, Layout.Solid decl.layout := by
  cases d with
  | pg =>
    have hclient : Layout.Solid (Declaration.interface ⟨"Client", [.required "query"
        (.named "(config: QueryArrayConfig) => Promise<QueryArrayResult>")], false⟩).layout :=
      Interface.solid_layout (by decide) (by decide)
    refine List.forall_mem_cons.mpr ⟨solid_imported (by decide) (by decide),
      List.forall_mem_append.mpr ⟨?_, List.forall_mem_singleton.mpr hclient⟩⟩
    cases Driver.pg.mentionsInterval queries with
    | false => exact List.forall_mem_nil _
    | true => exact List.forall_mem_singleton.mpr (solid_imported (by decide) (by decide))
  | postgres => exact List.forall_mem_singleton.mpr (solid_imported (by decide) (by decide))
  | mysql2 o =>
    have hclient : Layout.Solid (Declaration.typeAlias ⟨"Client",
        .union [.named "mysql.Connection", .named "mysql.Pool"], false⟩).layout :=
      Layout.solid_line (TypeAlias.isLine_text (by decide) (by decide))
    refine List.forall_mem_cons.mpr
      ⟨solid_imported (by decide : Unbroken "mysql2/promise") ?_,
        List.forall_mem_singleton.mpr hclient⟩
    dsimp only
    cases queries.any (·.command == .execLastId) <;> decide
  | betterSqlite3 safe =>
    exact List.forall_mem_singleton.mpr (solid_imported (by decide) (by decide))
  | turso => exact List.forall_mem_singleton.mpr (solid_imported (by decide) (by decide))

/-- A declaration of a file has no empty lines, unless it is the constant that holds the
    text of a query. -/
theorem solid_or_constant {d : Driver} {queries : List Query} {decls : List Declaration}
    (h : d.fileDeclarations queries = .ok decls) :
    ∀ decl ∈ decls, Layout.Solid decl.layout ∨ ∃ q ∈ queries,
      decl = .constant ⟨q.constantName, .template q.annotatedText, none, true⟩ := by
  refine forall_fileDeclarations h ?_ ?_
  · intro decl hdecl
    left
    exact solid_preamble d queries decl hdecl
  · intro q hq ds hok
    refine Query.forall_declarations hok (.inr ⟨q, hq, rfl⟩) ?_ ?_ ?_
    · intro i hi
      exact .inl (Query.solid_args hi)
    · intro i hi
      exact .inl (Query.solid_row hi)
    · intro f hf
      exact .inl (solid_function (Query.proper_plan q) (makes_queryFunction hf))

theorem exists_function_last {d : Driver} {queries : List Query} {decls : List Declaration}
    (h : d.fileDeclarations queries = .ok decls) (hne : queries ≠ []) :
    ∃ init f, decls = init ++ [.function f] := by
  obtain ⟨dss, hdss, rfl⟩ := map_eq_ok_iff.mp h
  have hlength := (mapM_eq_ok_iff.mp hdss).length_eq
  rcases List.eq_nil_or_concat' dss with rfl | ⟨init, last, rfl⟩
  · exact absurd (List.length_eq_zero_iff.mp hlength) hne
  · refine ⟨d.preamble queries ++ init.flatMap (·.toList) ++ (.constant last.constant ::
      (last.args?.map .interface).toList ++ (last.row?.map .interface).toList),
      last.function.function, ?_⟩
    simp [QueryDeclarations.toList]

end Driver

/-! ### Files -/

/-- The text of a file up to a declaration, given the declarations before it. -/
def textBefore (front : List Declaration) : String :=
  banner ++ "\n" ++ "\n" ++ joinRows (front.map Declaration.text)

/-- The text of a file behind a declaration, given the declarations after it. -/
def textBehind (back : List Declaration) : String :=
  String.join (back.map fun decl => "\n" ++ decl.text)

/-- The text of a file with the given declarations. Neighbours are separated by the end of
    one, one empty line, and the beginning of the other; wherever two empty lines follow
    each other, they do so in the constant of a query. -/
structure LaidOut (queries : List Query) (decls : List Declaration) (text : String) : Prop where
  joined : text = banner ++ "\n" ++ "\n" ++ "\n".intercalate (decls.map Declaration.text)
  framed : ∀ decl ∈ decls, Framed decl.text
  separated : ∀ front a b back, decls = front ++ a :: b :: back → ∃ body,
    a.text = body ++ "\n" ∧ body.toList.getLast? ≠ some '\n' ∧ b.text.toList.head? ≠ some '\n' ∧
      text = textBefore front ++ body ++ "\n\n" ++ b.text ++ textBehind back
  blanks : ∀ before after, text = before ++ "\n\n\n" ++ after →
    ∃ front decl back inFront inBack, decls = front ++ decl :: back ∧
      (∃ q ∈ queries, decl = .constant ⟨q.constantName, .template q.annotatedText, none, true⟩) ∧
      decl.text = inFront ++ "\n\n\n" ++ inBack ∧
      before = textBefore front ++ inFront ∧ after = inBack ++ textBehind back
  ending : ∃ body, text = body ++ "\x7d\n"

theorem text_split (front : List Declaration) (decl : Declaration) (back : List Declaration) :
    banner ++ "\n" ++ "\n" ++ "\n".intercalate ((front ++ decl :: back).map Declaration.text) =
      textBefore front ++ decl.text ++ textBehind back := by
  rw [List.map_append, List.map_cons, intercalate_split]
  simp [textBefore, textBehind, String.append_assoc, Function.comp_def]

theorem laidOut_fileDeclarations {d : Driver} {queries : List Query} {decls : List Declaration}
    (h : d.fileDeclarations queries = .ok decls) (hne : queries ≠ []) :
    LaidOut queries decls (SourceFile.text ⟨some banner, decls⟩) := by
  have hsolid := Driver.solid_or_constant h
  have hframed : ∀ decl ∈ decls, Framed decl.text := by
    intro decl hdecl
    rcases hsolid decl hdecl with hdecl | ⟨q, -, rfl⟩
    · exact Declaration.framed_of_solid hdecl
    · exact Declaration.framed_constant _
  have hbanner : ∀ row ∈ [banner], IsLine row :=
    List.forall_mem_singleton.mpr ⟨by decide, by decide⟩
  obtain ⟨init, f, hlast⟩ := Driver.exists_function_last h hne
  have hparts : SourceFile.text ⟨some banner, decls⟩ =
      "\n".intercalate (joinRows [banner] :: decls.map Declaration.text) := by
    rw [SourceFile.text_eq_intercalate]
    simp [joinRows]
  have hjoined : SourceFile.text ⟨some banner, decls⟩ =
      banner ++ "\n" ++ "\n" ++ "\n".intercalate (decls.map Declaration.text) := by
    rw [hparts, String.intercalate_cons_of_ne_nil (by simp [hlast])]
    simp [joinRows]
  refine ⟨hjoined, hframed, ?separated, ?blanks, ?ending⟩
  case separated =>
    rintro front a b back rfl
    obtain ⟨body, hbody, hend⟩ := (hframed a (by simp)).back
    refine ⟨body, hbody, hend, (hframed b (by simp)).front, ?_⟩
    have hbehind : textBehind (b :: back) = "\n" ++ b.text ++ textBehind back := by
      simp [textBehind]
    rw [hjoined, text_split, hbody, hbehind]
    simp [← String.toList_inj]
  case blanks =>
    intro before after heq
    have hall : ∀ part ∈ joinRows [banner] :: decls.map Declaration.text, Framed part :=
      List.forall_mem_cons.mpr
        ⟨framed_joinRows (List.cons_ne_nil _ _) hbanner, List.forall_mem_map.mpr hframed⟩
    rw [hparts] at heq
    obtain ⟨front, part, back, inFront, inBack, hsplit, hpart, rfl, rfl⟩ :=
      exists_part_of_blanks (List.cons_ne_nil _ _) hall heq
    have hseam (hseamless : Seamless part) : False := by
      refine hseamless inFront ("\n" ++ inBack) ?_
      rw [hpart]
      simp [← String.toList_inj]
    cases front with
    | nil =>
      obtain ⟨rfl, -⟩ := List.cons.inj hsplit
      exact (hseam (seamless_joinRows hbanner)).elim
    | cons first front =>
      obtain ⟨rfl, hdecls⟩ := List.cons.inj hsplit
      obtain ⟨front, rest, rfl, rfl, hrest⟩ := List.map_eq_append_iff.mp hdecls
      obtain ⟨decl, back, rfl, rfl, rfl⟩ := List.map_eq_cons_iff.mp hrest
      rcases hsolid decl (by simp) with hdecl | hconstant
      · exact (hseam (Declaration.seamless_of_solid hdecl)).elim
      · refine ⟨front, decl, back, inFront, inBack, rfl, hconstant, hpart, ?_, ?_⟩
        · simp [textBefore, joinRows]
        · simp [textBehind, Function.comp_def]
  case ending =>
    obtain ⟨body, hbody⟩ := Declaration.exists_text_function f
    refine ⟨textBefore init ++ body, ?_⟩
    rw [hjoined, hlast, text_split, hbody]
    simp [textBehind, String.append_assoc]

/-- **The layout of a generated file.** The file of any queries is the banner, an empty line
    and the texts of the declarations, each as it is written alone, joined by a line feed.
    Every one of them begins with something else than a line feed and ends with exactly one,
    so that one empty line separates neighbours. More than one in a row stand in the constant
    of a query only, and the file ends with a closing brace and a line feed. -/
theorem Driver.file_laidOut {d : Driver} {g : QueryGroup} {out : OutputFile}
    (h : d.file g = .ok out) (hne : g.queries ≠ []) :
    ∃ decls text, d.fileDeclarations g.queries = .ok decls ∧ out.contents = Text.utf8 text ∧
      LaidOut g.queries decls text := by
  obtain ⟨decls, hdecls, rfl⟩ := map_eq_ok_iff.mp h
  exact ⟨decls, _, hdecls, rfl, laidOut_fileDeclarations hdecls hne⟩

/-- Two queries whose texts begin, go on and end with empty lines. -/
def spacious : QueryGroup where
  filename := "q.sql"
  queries := [(Query.plain "Get" .one "\n\n\nSELECT\n\n\n1" "q.sql").addColumn (.ofType "a" "int8"),
    .plain "Touch" .exec "UPDATE t\n\n\n\n" "q.sql"]

theorem Driver.file_laidOut_spacious :
    ∃ out, Driver.turso.file spacious = .ok out ∧ spacious.queries ≠ [] ∧
      ∃ decls text, Driver.turso.fileDeclarations spacious.queries = .ok decls ∧
        out.contents = Text.utf8 text ∧ LaidOut spacious.queries decls text := by
  have hsupported : ∀ q ∈ spacious.queries, Driver.turso.Supports q.command := by decide
  obtain ⟨out, hout⟩ := exists_file hsupported
  have hne : spacious.queries ≠ [] := List.cons_ne_nil _ _
  exact ⟨out, hout, hne, file_laidOut hout hne⟩

end QueryClient
