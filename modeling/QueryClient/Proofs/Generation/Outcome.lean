/-
  QueryClient/Proofs/Generation/Outcome.lean
  ==========================================
  **What a run yields when it succeeds.** Every stage of generation either refuses a
  query or goes on to the next one. Success is described stage by stage: the queries of
  a group against their declarations, the groups against their files. And success is
  certain where the driver supports the command of every query.
-/
import QueryClient.Generation
import QueryClient.Proofs.Traversal

namespace QueryClient

open Script

/-! ### Supported commands -/

namespace Driver

/-- Can the driver tell the id of the row just inserted? -/
def tellsInsertedId : Driver → Bool
  | .mysql2 _ => true
  | .turso => true
  | _ => false

/-- A driver supports every command, save that not every driver can tell an inserted
    id. -/
def Supports (d : Driver) (c : Command) : Prop := c = .execLastId → d.tellsInsertedId = true

instance (d : Driver) (c : Command) : Decidable (d.Supports c) :=
  inferInstanceAs (Decidable (c = .execLastId → d.tellsInsertedId = true))

theorem exists_queryFunction {d : Driver} {c : Command} (h : d.Supports c) (p : FunctionPlan) :
    ∃ f, d.queryFunction c p = .ok f := by
  cases c with
  | exec => exact ⟨_, rfl⟩
  | one => exact ⟨_, rfl⟩
  | many => exact ⟨_, rfl⟩
  | execLastId =>
    cases d with
    | mysql2 o => exact ⟨_, rfl⟩
    | turso => exact ⟨_, rfl⟩
    | pg => exact absurd (h rfl) (by decide)
    | postgres => exact absurd (h rfl) (by decide)
    | betterSqlite3 safe => exact absurd (h rfl) (Bool.false_ne_true)

end Driver

/-! ### One query -/

theorem Query.declarations_eq_ok_iff {d : Driver} {q : Query} {ds : QueryDeclarations} :
    q.declarations d = .ok ds ↔
      ∃ f, d.queryFunction q.command q.plan = .ok f ∧
        ds = ⟨⟨q.constantName, .template q.annotatedText, none, true⟩, q.argsInterface? d,
          q.rowInterface? d, f⟩ := by
  rw [declarations]
  cases d.queryFunction q.command q.plan with
  | error e => simp [Except.map]
  | ok f => simp [Except.map, eq_comm]

/-- What the constant, the interfaces and the function of a query have in common, all of
    its declarations have. -/
theorem Query.forall_declarations {d : Driver} {q : Query} {ds : QueryDeclarations}
    {P : Declaration → Prop} (h : q.declarations d = .ok ds)
    (hconstant : P (.constant ⟨q.constantName, .template q.annotatedText, none, true⟩))
    (hargs : ∀ i, q.argsInterface? d = some i → P (.interface i))
    (hrow : ∀ i, q.rowInterface? d = some i → P (.interface i))
    (hfunction : ∀ f, d.queryFunction q.command q.plan = .ok f → P (.function f.function)) :
    ∀ decl ∈ ds.toList, P decl := by
  obtain ⟨f, hf, rfl⟩ := declarations_eq_ok_iff.mp h
  intro decl hdecl
  simp only [QueryDeclarations.toList, List.mem_append, List.mem_cons, Option.mem_toList,
    Option.map_eq_some_iff, List.not_mem_nil, or_false] at hdecl
  rcases hdecl with ((rfl | ⟨i, hi, rfl⟩) | ⟨i, hi, rfl⟩) | rfl
  · exact hconstant
  · exact hargs i hi
  · exact hrow i hi
  · exact hfunction f hf

/-! ### Files -/

namespace Driver

theorem forall_fileDeclarations {d : Driver} {queries : List Query} {decls : List Declaration}
    {P : Declaration → Prop} (h : d.fileDeclarations queries = .ok decls)
    (hpreamble : ∀ decl ∈ d.preamble queries, P decl)
    (hquery : ∀ q ∈ queries, ∀ ds, q.declarations d = .ok ds → ∀ decl ∈ ds.toList, P decl) :
    ∀ decl ∈ decls, P decl := by
  obtain ⟨dss, hdss, rfl⟩ := map_eq_ok_iff.mp h
  refine List.forall_mem_append.mpr ⟨hpreamble, ?_⟩
  intro decl hdecl
  obtain ⟨ds, hds, hdecl⟩ := List.mem_flatMap.mp hdecl
  obtain ⟨q, hq, hok⟩ := exists_of_mem_mapM hdss hds
  exact hquery q hq ds hok decl hdecl

theorem file_eq_ok_iff {d : Driver} {g : QueryGroup} {out : OutputFile} :
    d.file g = .ok out ↔
      ∃ dss : List QueryDeclarations,
        List.Forall₂ (fun q ds => q.declarations d = .ok ds) g.queries dss ∧
        out = ⟨outputName g.filename, Text.utf8
          (SourceFile.text ⟨some banner, d.preamble g.queries ++ dss.flatMap (·.toList)⟩)⟩ := by
  simp only [file, fileDeclarations, map_eq_ok_iff, mapM_eq_ok_iff]
  constructor
  · rintro ⟨decls, ⟨dss, hdss, rfl⟩, rfl⟩
    exact ⟨dss, hdss, rfl⟩
  · rintro ⟨dss, hdss, rfl⟩
    exact ⟨_, ⟨dss, hdss, rfl⟩, rfl⟩

theorem generate_eq_ok_iff {d : Driver} {queries : List Query} {r : Response} :
    d.generate queries = .ok r ↔
      List.Forall₂ (fun g out => d.file g = .ok out) (QueryGroup.ofQueries queries) r.files := by
  simp only [generate, map_eq_ok_iff, mapM_eq_ok_iff]
  constructor
  · rintro ⟨files, hfiles, rfl⟩
    exact hfiles
  · intro hfiles
    exact ⟨r.files, hfiles, rfl⟩

theorem exists_file {d : Driver} {g : QueryGroup} (h : ∀ q ∈ g.queries, d.Supports q.command) :
    ∃ out, d.file g = .ok out := by
  have hall : ∀ q ∈ g.queries, ∃ ds, q.declarations d = .ok ds := by
    intro q hq
    obtain ⟨f, hf⟩ := exists_queryFunction (h q hq) q.plan
    exact ⟨_, Query.declarations_eq_ok_iff.mpr ⟨f, hf, rfl⟩⟩
  obtain ⟨dss, hdss⟩ := exists_mapM_iff.mpr hall
  exact ⟨_, file_eq_ok_iff.mpr ⟨dss, mapM_eq_ok_iff.mp hdss, rfl⟩⟩

theorem exists_generate_of_groups {d : Driver} {queries : List Query}
    (h : ∀ g ∈ QueryGroup.ofQueries queries, ∀ q ∈ g.queries, d.Supports q.command) :
    ∃ r, d.generate queries = .ok r := by
  obtain ⟨files, hfiles⟩ := exists_mapM_iff.mpr fun g hg => exists_file (h g hg)
  exact ⟨⟨files⟩, generate_eq_ok_iff.mpr (mapM_eq_ok_iff.mp hfiles)⟩

end Driver
end QueryClient
