/-
  QueryClient/Proofs/Generation/Refusal.lean
  ==========================================
  **A run generates every file, or none and says why.** Each stage goes through a list
  and stops at the first item that it refuses, so what a stage refuses is the first
  refusal among its items (`fault?_mapM`). The stages are nested: files are gone through
  in the order in which they are first seen, and in each of them its queries. What comes
  out is one search through the queries laid out file by file (`Driver.fault?_generate`),
  which is not the order in which they were given.

  The settings come before all that. They are read whatever the queries, and where they
  select no driver no query is looked at.
-/
import Mathlib.Logic.Basic
import QueryClient.Proofs.Generation.Grouping

namespace QueryClient

/-! ### Stages -/

theorem Query.fault?_declarations (d : Driver) (q : Query) :
    fault? (q.declarations d) = if ¬d.Supports q.command then some ⟨d, q.name⟩ else none := by
  rw [declarations, fault?_map]
  by_cases h : d.Supports q.command
  · obtain ⟨f, hf⟩ := Driver.exists_queryFunction h q.plan
    rw [hf, if_neg (not_not_intro h)]
    rfl
  · have hcommand : q.command = .execLastId := by
      by_contra hne
      exact h fun heq => absurd heq hne
    rw [if_pos h, hcommand]
    rw [hcommand] at h
    cases d with
    | mysql2 o => exact absurd (fun _ => rfl) h
    | turso => exact absurd (fun _ => rfl) h
    | _ => rfl

namespace Driver

theorem fault?_file (d : Driver) (g : QueryGroup) :
    fault? (d.file g) =
      (g.queries.find? fun q => ¬d.Supports q.command).map fun q => ⟨d, q.name⟩ := by
  rw [file, fault?_map, fileDeclarations, fault?_map, fault?_mapM]
  simp only [Query.fault?_declarations]
  exact findSome?_ite _ _ _

/-- The first query that the driver refuses, in the order in which files and queries are
    generated. -/
def firstRefused? (d : Driver) (queries : List Query) : Option Query :=
  ((sourceFiles queries).flatMap (queriesOf queries)).find? fun q => ¬d.Supports q.command

theorem fault?_generate (d : Driver) (queries : List Query) :
    fault? (d.generate queries) = (d.firstRefused? queries).map fun q => ⟨d, q.name⟩ := by
  rw [generate, fault?_map, fault?_mapM, QueryGroup.ofQueries_eq, List.findSome?_map,
    firstRefused?, List.find?_flatMap, List.map_findSome?]
  congr 1
  funext f
  exact fault?_file d ⟨f, queriesOf queries f⟩

theorem not_supports_iff {d : Driver} {c : Command} :
    ¬d.Supports c ↔ d.name ∈ ["pg", "postgres", "better-sqlite3"] ∧ c = .execLastId := by
  have hname : d.tellsInsertedId = false ↔ d.name ∈ ["pg", "postgres", "better-sqlite3"] := by
    cases d <;> simp [tellsInsertedId, name]
  rw [Supports, Classical.not_imp, Bool.not_eq_true, hname, and_comm]

theorem mem_flatMap_queriesOf {queries : List Query} {q : Query} :
    q ∈ (sourceFiles queries).flatMap (queriesOf queries) ↔ q ∈ queries :=
  (perm_flatMap_queriesOf (nodup_sourceFiles queries)
    fun q hq => mem_sourceFiles.mpr ⟨q, hq, rfl⟩).mem_iff

theorem isSome_firstRefused?_iff {d : Driver} {queries : List Query} :
    (d.firstRefused? queries).isSome = true ↔
      d.name ∈ ["pg", "postgres", "better-sqlite3"] ∧ ∃ q ∈ queries, q.command = .execLastId := by
  rw [firstRefused?, List.find?_isSome]
  simp only [decide_eq_true_eq, not_supports_iff, mem_flatMap_queriesOf]
  constructor
  · rintro ⟨q, hq, hname, hcommand⟩
    exact ⟨hname, q, hq, hcommand⟩
  · rintro ⟨hname, q, hq, hcommand⟩
    exact ⟨q, hq, hname, hcommand⟩

/-- A driver that refuses one query refuses every query with that command. -/
theorem firstRefused?_eq_find? {d : Driver} (hname : d.name ∈ ["pg", "postgres", "better-sqlite3"])
    (queries : List Query) :
    d.firstRefused? queries =
      ((sourceFiles queries).flatMap (queriesOf queries)).find? (·.command = .execLastId) := by
  have hrefused (q : Query) : decide (¬d.Supports q.command) = decide (q.command = .execLastId) :=
    decide_eq_decide.mpr
      (not_supports_iff.trans ⟨And.right, fun hcommand => ⟨hname, hcommand⟩⟩)
  rw [firstRefused?]
  simp only [hrefused]

theorem map_name_files {d : Driver} {queries : List Query} {out : Response}
    (h : d.generate queries = .ok out) :
    out.files.map (·.name) = (sourceFiles queries).map outputName := by
  have hfiles := generate_eq_ok_iff.mp h
  rw [QueryGroup.ofQueries_eq, List.forall₂_map_left_iff] at hfiles
  rw [eq_comm, ← List.forall₂_eq_eq_eq, List.forall₂_map_left_iff, List.forall₂_map_right_iff]
  apply hfiles.imp
  intro f file hfile
  obtain ⟨dss, -, rfl⟩ := file_eq_ok_iff.mp hfile
  rfl

end Driver

/-! ### Runs -/

theorem NoInsertedId.message_eq (d : Driver) (query : String) :
    NoInsertedId.message ⟨d, query⟩ =
      "driver '" ++ d.name ++ "' does not support :execlastid (query '" ++ query ++ "')" := by
  have htag : "' does not support " ++ Command.execLastId.tag ++ " (query '" =
      "' does not support :execlastid (query '" := by decide
  rw [message, ← htag, ← String.append_assoc, ← String.append_assoc]

/-- How a run ends whose settings select a driver, given the source files of its
    queries. -/
structure Request.EndsWith (r : Request) (d : Driver) (files : List String) : Prop where
  fails_iff : (∃ f, r.generate = .error f) ↔
    d.name ∈ ["pg", "postgres", "better-sqlite3"] ∧ ∃ q ∈ r.queries, q.command = .execLastId
  /-- The fault names the first query that asks for an inserted id, file by file. -/
  fault : ∀ f, r.generate = .error f → ∃ q,
    (files.flatMap (queriesOf r.queries)).find? (·.command = .execLastId) = some q ∧
    f = .noInsertedId ⟨d, q.name⟩ ∧ f.kind = .unsupportedOperation ∧
    f.message = "driver '" ++ d.name ++ "' does not support :execlastid (query '" ++ q.name ++ "')"
  succeeds : (¬∃ f, r.generate = .error f) →
    ∃ out, r.generate = .ok out ∧ out.files.map (·.name) = files.map Driver.outputName

namespace Settings

variable {bs : Bytes}

theorem selectDriver_eq_settings_iff {f : SettingsFault} :
    selectDriver bs = .error (.settings f) ↔ parse bs = .error f := by
  rw [selectDriver]
  cases parse bs with
  | error e => simp
  | ok s => cases h : s.driver <;> simp [h, Except.mapError]

theorem selectDriver_eq_selection_iff {f : SelectionFault} :
    selectDriver bs = .error (.selection f) ↔ ∃ s, parse bs = .ok s ∧ s.driver = .error f := by
  rw [selectDriver]
  cases parse bs with
  | error e => simp
  | ok s => cases h : s.driver <;> simp [h, Except.mapError]

theorem selectDriver_eq_ok {s : Settings} {d : Driver} (hs : parse bs = .ok s)
    (hd : s.driver = .ok d) : selectDriver bs = .ok d := by
  rw [selectDriver, hs]
  simp only [hd, Except.mapError]

end Settings

namespace Request

variable {r : Request}

theorem generate_of_selectDriver {d : Driver} (h : Settings.selectDriver r.settings = .ok d) :
    r.generate = (d.generate r.queries).mapError .noInsertedId := by
  rw [generate, h]

theorem exists_driver_of_generate {out : Response} (h : r.generate = .ok out) :
    ∃ d, Settings.selectDriver r.settings = .ok d ∧ d.generate r.queries = .ok out := by
  cases hdriver : Settings.selectDriver r.settings with
  | error f =>
    rw [generate, hdriver] at h
    cases h
  | ok d =>
    rw [generate_of_selectDriver hdriver] at h
    cases hrun : d.generate r.queries with
    | error e =>
      rw [hrun] at h
      cases h
    | ok out' =>
      rw [hrun] at h
      cases h
      exact ⟨d, rfl, hrun⟩

theorem exists_generate {d : Driver} (h : Settings.selectDriver r.settings = .ok d)
    (hsupported : ∀ q ∈ r.queries, d.Supports q.command) :
    ∃ out, r.generate = .ok out ∧ d.generate r.queries = .ok out := by
  obtain ⟨out, hout⟩ := Driver.exists_generate hsupported
  refine ⟨out, ?_, hout⟩
  rw [generate_of_selectDriver h, hout]
  rfl

theorem generate_eq_error_iff {d : Driver} (h : Settings.selectDriver r.settings = .ok d)
    {f : Fault} :
    r.generate = .error f ↔
      ∃ q, d.firstRefused? r.queries = some q ∧ f = .noInsertedId ⟨d, q.name⟩ := by
  have hsearch := Driver.fault?_generate d r.queries
  rw [generate_of_selectDriver h]
  cases hrun : d.generate r.queries with
  | error e =>
    rw [hrun] at hsearch
    obtain ⟨q, hq, rfl⟩ := Option.map_eq_some_iff.mp hsearch.symm
    simp [hq, Except.mapError, eq_comm]
  | ok out =>
    rw [hrun] at hsearch
    have hnone := Option.map_eq_none_iff.mp hsearch.symm
    simp [hnone, Except.mapError]

/-- A fault of the settings is a fault of the run, and the run has it from nowhere else. -/
theorem generate_eq_error_iff_selectDriver {f : Fault} (hf : ∀ e, f ≠ .noInsertedId e) :
    r.generate = .error f ↔ Settings.selectDriver r.settings = .error f := by
  cases h : Settings.selectDriver r.settings with
  | error f' => simp only [generate, h, Except.error.injEq]
  | ok d =>
    rw [generate_eq_error_iff h]
    constructor
    · rintro ⟨q, -, rfl⟩
      exact absurd rfl (hf _)
    · intro hok
      cases hok

theorem endsWith {d : Driver} (h : Settings.selectDriver r.settings = .ok d) :
    r.EndsWith d (sourceFiles r.queries) where
  fails_iff := by
    rw [← Driver.isSome_firstRefused?_iff, Option.isSome_iff_exists]
    constructor
    · rintro ⟨f, hf⟩
      obtain ⟨q, hq, -⟩ := (generate_eq_error_iff h).mp hf
      exact ⟨q, hq⟩
    · rintro ⟨q, hq⟩
      exact ⟨_, (generate_eq_error_iff h).mpr ⟨q, hq, rfl⟩⟩
  fault := by
    intro f hf
    obtain ⟨q, hq, rfl⟩ := (generate_eq_error_iff h).mp hf
    have hname := (Driver.isSome_firstRefused?_iff.mp (Option.isSome_iff_exists.mpr ⟨q, hq⟩)).1
    exact ⟨q, (Driver.firstRefused?_eq_find? hname r.queries).symm.trans hq, rfl, rfl,
      NoInsertedId.message_eq d q.name⟩
  succeeds := by
    intro hok
    cases hrun : d.generate r.queries with
    | error e => exact absurd ⟨_, by rw [generate_of_selectDriver h, hrun]; rfl⟩ hok
    | ok out =>
      exact ⟨out, by rw [generate_of_selectDriver h, hrun]; rfl, Driver.map_name_files hrun⟩

end Request

/-- Three queries of two source files. The first to ask for an inserted id is in the file
    that is generated last. -/
def askingOutOfOrder : List Query :=
  [.plain "Touch" .exec "UPDATE t" "a.sql", .plain "AddB" .execLastId "INSERT INTO b" "b.sql",
    .plain "AddA" .execLastId "INSERT INTO a" "a.sql"]

/-- **All or nothing, with a precise cause.** Whatever the queries, a run fails by its
    settings exactly where these cannot be read or select no driver. With a driver selected
    it fails exactly if the driver cannot tell an inserted id and some query asks for one;
    the fault names the driver and the first such query, where queries are taken file by
    file and files as they are first seen. Otherwise there is a file for every source file.
    The query that is named need not be the first in the request. -/
theorem Request.generate_all_or_nothing :
    (∀ (r : Request) (f : SettingsFault),
      r.generate = .error (.settings f) ↔ Settings.parse r.settings = .error f) ∧
    (∀ (r : Request) (f : SelectionFault), r.generate = .error (.selection f) ↔
      ∃ s, Settings.parse r.settings = .ok s ∧ s.driver = .error f) ∧
    (∀ (r : Request) (s : Settings) (d : Driver), Settings.parse r.settings = .ok s →
      s.driver = .ok d → ∃ files, FirstSeen r.queries files ∧ r.EndsWith d files) ∧
    ∃ (r : Request) (e : NoInsertedId) (q : Query), r.generate = .error (.noInsertedId e) ∧
      r.queries.find? (·.command = .execLastId) = some q ∧ e.query ≠ q.name := by
  refine ⟨?settings, ?selection, ?ends, ?order⟩
  case settings =>
    intro r f
    rw [generate_eq_error_iff_selectDriver (fun e h => by cases h),
      Settings.selectDriver_eq_settings_iff]
  case selection =>
    intro r f
    rw [generate_eq_error_iff_selectDriver (fun e h => by cases h),
      Settings.selectDriver_eq_selection_iff]
  case ends =>
    intro r s d hs hd
    exact ⟨_, firstSeen_sourceFiles r.queries, endsWith (Settings.selectDriver_eq_ok hs hd)⟩
  case order =>
    have hdriver : Settings.selectDriver (Text.utf8 "\x7b\"driver\":\"pg\"\x7d") = .ok .pg := rfl
    have hfirst : Driver.pg.firstRefused? askingOutOfOrder =
        some (.plain "AddA" .execLastId "INSERT INTO a" "a.sql") := by decide +kernel
    exact ⟨⟨askingOutOfOrder, Text.utf8 "\x7b\"driver\":\"pg\"\x7d"⟩, ⟨.pg, "AddA"⟩,
      .plain "AddB" .execLastId "INSERT INTO b" "b.sql",
      (generate_eq_error_iff hdriver).mpr ⟨_, hfirst, rfl⟩, by decide +kernel, by decide⟩

end QueryClient
