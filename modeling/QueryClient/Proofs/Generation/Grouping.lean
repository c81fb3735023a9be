/-
  QueryClient/Proofs/Generation/Grouping.lean
  ===========================================
  **Queries are partitioned by source file, and files are independent.** The groups are
  built by inserting one query after the other. Here they are described at once: one
  group for each source file, in the order in which the source files are first seen,
  and in it the queries of that file in their order (`QueryGroup.ofQueries_eq`). One
  insertion keeps this description (`insert_map`), so all of them do.

  A file is generated from its group and nothing else, so that generating the queries
  of one source file alone gives the same file (`generate_queriesOf`), and reordering
  queries of different source files reorders files at most (`generate_perm`).
-/
import Mathlib.Data.List.Induction
import Mathlib.Data.List.Nodup
import Mathlib.Data.List.Perm.Basic
import QueryClient.Proofs.Generation.Outcome

namespace QueryClient

open Script

/-! ### Source files and their queries -/

/-- The source files of queries, each at its first query. -/
def sourceFiles (queries : List Query) : List String := (queries.map (·.filename)).eraseDups

/-- The queries of one source file, in their order. -/
def queriesOf (queries : List Query) (filename : String) : List Query :=
  queries.filter (·.filename = filename)

theorem mem_sourceFiles {queries : List Query} {f : String} :
    f ∈ sourceFiles queries ↔ ∃ q ∈ queries, q.filename = f := by
  rw [sourceFiles, List.mem_eraseDups, List.mem_map]

theorem mem_queriesOf {queries : List Query} {f : String} {q : Query} :
    q ∈ queriesOf queries f ↔ q ∈ queries ∧ q.filename = f := by
  simp [queriesOf]

theorem mem_sourceFiles_iff_queriesOf {queries : List Query} {f : String} :
    f ∈ sourceFiles queries ↔ queriesOf queries f ≠ [] := by
  rw [mem_sourceFiles]
  constructor
  · rintro ⟨q, hq, hf⟩ hnil
    have hmem : q ∈ queriesOf queries f := mem_queriesOf.mpr ⟨hq, hf⟩
    rw [hnil] at hmem
    cases hmem
  · intro hne
    obtain ⟨q, hq⟩ := List.exists_mem_of_ne_nil _ hne
    exact ⟨q, mem_queriesOf.mp hq⟩

theorem eraseDups_concat (l : List String) (a : String) :
    (l ++ [a]).eraseDups = if a ∈ l then l.eraseDups else l.eraseDups ++ [a] := by
  rw [List.eraseDups_append]
  by_cases h : a ∈ l
  · simp [List.removeAll, h]
  · simp [List.removeAll, h, List.eraseDups_cons]

theorem sourceFiles_concat (queries : List Query) (q : Query) :
    sourceFiles (queries ++ [q]) =
      if q.filename ∈ sourceFiles queries then sourceFiles queries
      else sourceFiles queries ++ [q.filename] := by
  simp only [sourceFiles, List.mem_eraseDups]
  rw [List.map_append]
  exact eraseDups_concat _ _

theorem queriesOf_concat (queries : List Query) (q : Query) (f : String) :
    queriesOf (queries ++ [q]) f =
      queriesOf queries f ++ if q.filename = f then [q] else [] := by
  by_cases h : q.filename = f
  · simp [queriesOf, h]
  · simp [queriesOf, h]

/-- Source files stand in the order of their first queries. -/
theorem pairwise_sourceFiles (queries : List Query) :
    (sourceFiles queries).Pairwise fun f g =>
      (queries.map (·.filename)).idxOf f < (queries.map (·.filename)).idxOf g := by
  induction queries using List.reverseRecOn with
  | nil => exact List.Pairwise.nil
  | append_singleton queries q ih =>
    -- files seen before keep their place when a query is added at the end
    have hplace {f : String} (hf : f ∈ sourceFiles queries) :
        ((queries ++ [q]).map (·.filename)).idxOf f = (queries.map (·.filename)).idxOf f := by
      rw [List.map_append, List.idxOf_append_of_mem (List.mem_eraseDups.mp hf)]
    have hold : (sourceFiles queries).Pairwise fun f g =>
        ((queries ++ [q]).map (·.filename)).idxOf f <
          ((queries ++ [q]).map (·.filename)).idxOf g := by
      apply ih.imp_of_mem
      intro f g hf hg hlt
      rw [hplace hf, hplace hg]
      exact hlt
    rw [sourceFiles_concat]
    by_cases hmem : q.filename ∈ sourceFiles queries
    · rw [if_pos hmem]
      exact hold
    · rw [if_neg hmem]
      refine List.pairwise_append.mpr ⟨hold, List.pairwise_singleton _ _, ?_⟩
      intro f hf g hg
      rw [List.mem_singleton.mp hg, hplace hf, List.map_append,
        List.idxOf_append_of_notMem fun h => hmem (List.mem_eraseDups.mpr h)]
      exact Nat.lt_add_right _ (List.idxOf_lt_length_of_mem (List.mem_eraseDups.mp hf))

theorem nodup_sourceFiles (queries : List Query) : (sourceFiles queries).Nodup := by
  apply (pairwise_sourceFiles queries).imp
  intro f g hlt heq
  rw [heq] at hlt
  exact Nat.lt_irrefl _ hlt

/-! ### Groups -/

namespace QueryGroup

/-- **One insertion.** Let there be one group for each of some distinct source files. A
    query of one of them goes to the end of its group, and a query of another file
    opens a group at the end; no other group changes. -/
theorem insert_map {files : List String} (hnodup : files.Nodup) (members : String → List Query)
    (q : Query) (hnew : q.filename ∉ files → members q.filename = []) :
    insert (files.map fun f => ⟨f, members f⟩) q =
      (if q.filename ∈ files then files else files ++ [q.filename]).map fun f =>
        ⟨f, members f ++ if q.filename = f then [q] else []⟩ := by
  induction files with
  | nil => simp [insert, hnew]
  | cons f files ih =>
    obtain ⟨hf, hnodup⟩ := List.nodup_cons.mp hnodup
    rw [List.map_cons, insert]
    by_cases heq : f = q.filename
    · -- the group of the query; the source file does not come again
      subst heq
      have hrest : ∀ g ∈ files, ¬q.filename = g := by
        intro g hg heq
        exact hf (heq ▸ hg)
      simp only [if_true, List.mem_cons, true_or, List.map_cons, List.cons.injEq, true_and]
      apply List.map_congr_left
      intro g hg
      rw [if_neg (hrest g hg), List.append_nil]
    · have heq' : ¬q.filename = f := fun h => heq h.symm
      rw [if_neg heq, ih hnodup fun h => hnew (by simp [heq', h])]
      by_cases hmem : q.filename ∈ files
      · simp [hmem, heq']
      · simp [hmem, heq']

/-- The groups at once: one for each source file, in the order of the first queries,
    with the queries of that file. -/
theorem ofQueries_eq (queries : List Query) :
    ofQueries queries = (sourceFiles queries).map fun f => ⟨f, queriesOf queries f⟩ := by
  induction queries using List.reverseRecOn with
  | nil => rfl
  | append_singleton queries q ih =>
    have hnew : q.filename ∉ sourceFiles queries → queriesOf queries q.filename = [] := by
      intro h
      by_contra hne
      exact h (mem_sourceFiles_iff_queriesOf.mpr hne)
    rw [ofQueries, List.foldl_append, List.foldl_cons, List.foldl_nil]
    change insert (ofQueries queries) q = _
    rw [ih, insert_map (nodup_sourceFiles queries) _ q hnew, sourceFiles_concat]
    simp only [queriesOf_concat]

/-- Queries may be changed before they are grouped or afterwards, unless they change
    files. -/
theorem ofQueries_map {change : Query → Query} (h : ∀ q, (change q).filename = q.filename)
    (queries : List Query) :
    ofQueries (queries.map change) =
      (ofQueries queries).map fun g => ⟨g.filename, g.queries.map change⟩ := by
  have hfiles : sourceFiles (queries.map change) = sourceFiles queries := by
    simp [sourceFiles, Function.comp_def, h]
  have hqueries (f : String) :
      queriesOf (queries.map change) f = (queriesOf queries f).map change := by
    simp [queriesOf, List.filter_map, Function.comp_def, h]
  rw [ofQueries_eq, ofQueries_eq, hfiles, List.map_map]
  simp only [hqueries, Function.comp_def]

theorem ofQueries_queriesOf {queries : List Query} {f : String}
    (h : f ∈ sourceFiles queries) :
    ofQueries (queriesOf queries f) = [⟨f, queriesOf queries f⟩] := by
  have hsame : queriesOf (queriesOf queries f) f = queriesOf queries f := by
    simp [queriesOf]
  have honly : sourceFiles (queriesOf queries f) = [f] := by
    have hmem : f ∈ sourceFiles (queriesOf queries f) := by
      rw [mem_sourceFiles_iff_queriesOf, hsame]
      exact mem_sourceFiles_iff_queriesOf.mp h
    have hall : ∀ g ∈ sourceFiles (queriesOf queries f), g = f := by
      intro g hg
      obtain ⟨q, hq, rfl⟩ := mem_sourceFiles.mp hg
      exact (mem_queriesOf.mp hq).2
    have hperm := (List.perm_ext_iff_of_nodup (nodup_sourceFiles _) (List.nodup_singleton f)).mpr
      fun g => ⟨fun hg => List.mem_singleton.mpr (hall g hg),
        fun hg => List.mem_singleton.mp hg ▸ hmem⟩
    exact List.perm_singleton.mp hperm
  rw [ofQueries_eq, honly, List.map_singleton, hsame]

theorem perm_ofQueries {queries queries' : List Query}
    (hsame : ∀ f, queriesOf queries' f = queriesOf queries f) :
    (ofQueries queries').Perm (ofQueries queries) := by
  have hfiles : (sourceFiles queries').Perm (sourceFiles queries) := by
    apply (List.perm_ext_iff_of_nodup (nodup_sourceFiles _) (nodup_sourceFiles _)).mpr
    intro f
    rw [mem_sourceFiles_iff_queriesOf, mem_sourceFiles_iff_queriesOf, hsame]
  rw [ofQueries_eq, ofQueries_eq, funext hsame]
  exact hfiles.map _

end QueryGroup

/-- The queries of distinct source files, put together, are all queries whose source
    file is among them: none is lost and none comes twice. -/
theorem perm_flatMap_queriesOf {files : List String} (hnodup : files.Nodup)
    {queries : List Query} (hfiles : ∀ q ∈ queries, q.filename ∈ files) :
    (files.flatMap (queriesOf queries)).Perm queries := by
  induction files generalizing queries with
  | nil =>
    have hnil : queries = [] := List.eq_nil_iff_forall_not_mem.mpr fun q hq => by
      cases hfiles q hq
    rw [hnil]
    exact List.Perm.nil
  | cons f files ih =>
    obtain ⟨hf, hnodup⟩ := List.nodup_cons.mp hnodup
    let rest := queries.filter fun q => !decide (q.filename = f)
    have hrest : ∀ q ∈ rest, q.filename ∈ files := by
      intro q hq
      obtain ⟨hmem, hne⟩ := List.mem_filter.mp hq
      rcases List.mem_cons.mp (hfiles q hmem) with heq | hin
      · simp [heq] at hne
      · exact hin
    have hsame : ∀ g ∈ files, queriesOf queries g = queriesOf rest g := by
      intro g hg
      rw [queriesOf, queriesOf, List.filter_filter]
      apply List.filter_congr
      intro q _
      by_cases heq : q.filename = g
      · have hne : ¬q.filename = f := fun h => hf (h ▸ heq ▸ hg)
        simp [heq]
        exact fun h => hne (heq.trans h)
      · simp [heq]
    rw [List.flatMap_cons, List.flatMap_congr hsame]
    exact ((ih hnodup hrest).append_left _).trans (List.filter_append_perm _ queries)

/-! ### Files -/

namespace Driver

theorem exists_generate {d : Driver} {queries : List Query}
    (h : ∀ q ∈ queries, d.Supports q.command) : ∃ r, d.generate queries = .ok r := by
  apply exists_generate_of_groups
  intro g hg q hq
  rw [QueryGroup.ofQueries_eq] at hg
  obtain ⟨f, -, rfl⟩ := List.mem_map.mp hg
  exact h q (mem_queriesOf.mp hq).1

theorem generate_queriesOf {d : Driver} {queries : List Query} {f : String} {out : OutputFile}
    (hf : f ∈ sourceFiles queries) (h : d.file ⟨f, queriesOf queries f⟩ = .ok out) :
    d.generate (queriesOf queries f) = .ok ⟨[out]⟩ := by
  rw [generate_eq_ok_iff, QueryGroup.ofQueries_queriesOf hf]
  exact List.Forall₂.cons h List.Forall₂.nil

theorem generate_perm {d : Driver} {queries queries' : List Query} {r : Response}
    (h : d.generate queries = .ok r)
    (hsame : ∀ f, queriesOf queries' f = queriesOf queries f) :
    ∃ r', d.generate queries' = .ok r' ∧ r'.files.Perm r.files := by
  have hfiles := generate_eq_ok_iff.mp h
  obtain ⟨files, hforall, hperm⟩ :=
    List.perm_comp_forall₂ (QueryGroup.perm_ofQueries hsame) hfiles
  exact ⟨⟨files⟩, generate_eq_ok_iff.mpr hforall, hperm⟩

end Driver

/-- What a run makes of one source file: a file with the preamble for its queries and
    then the declarations of each query in order, the same as if the run had been given
    the queries of that source file only. -/
structure GeneratedAlone (d : Driver) (queries : List Query) (f : String) (out : OutputFile) :
    Prop where
  name : out.name = Driver.outputName f
  contents : ∃ dss : List QueryDeclarations,
    List.Forall₂ (fun q ds => q.declarations d = .ok ds) (queriesOf queries f) dss ∧
    out.contents = Text.utf8 (SourceFile.text
      ⟨some banner, d.preamble (queriesOf queries f) ++ dss.flatMap (·.toList)⟩)
  alone : d.generate (queriesOf queries f) = .ok ⟨[out]⟩

theorem generatedAlone_of_file {d : Driver} {queries : List Query} {f : String}
    {out : OutputFile} (hf : f ∈ sourceFiles queries)
    (h : d.file ⟨f, queriesOf queries f⟩ = .ok out) : GeneratedAlone d queries f out := by
  obtain ⟨dss, hdss, hout⟩ := Driver.file_eq_ok_iff.mp h
  exact ⟨by rw [hout], ⟨dss, hdss, by rw [hout]⟩, Driver.generate_queriesOf hf h⟩

/-- The source files of queries, each once, in the order of their first queries. -/
structure FirstSeen (queries : List Query) (files : List String) : Prop where
  nodup : files.Nodup
  mem_iff : ∀ f, f ∈ files ↔ ∃ q ∈ queries, q.filename = f
  order : files.Pairwise fun f g =>
    (queries.map (·.filename)).idxOf f < (queries.map (·.filename)).idxOf g

theorem firstSeen_sourceFiles (queries : List Query) :
    FirstSeen queries (sourceFiles queries) where
  nodup := nodup_sourceFiles queries
  mem_iff _ := mem_sourceFiles
  order := pairwise_sourceFiles queries

/-- **Grouping is a stable partition, and files are independent.** A successful run yields
    one file for each source file, in the order in which these are first seen, and each
    is what the queries of that source file alone would give. Every query goes to exactly
    one of them, with nothing lost or doubled; and as long as the queries of each source
    file keep their order, reordering all queries reorders the files and nothing else. -/
theorem Driver.generate_partitions {d : Driver} {queries : List Query} {r : Response}
    (h : d.generate queries = .ok r) :
    ∃ files : List String, FirstSeen queries files ∧
      List.Forall₂ (GeneratedAlone d queries) files r.files ∧
      (∀ q ∈ queries, ∃! f, f ∈ files ∧ q ∈ queriesOf queries f) ∧
      (files.flatMap (queriesOf queries)).Perm queries ∧
      ∀ queries', (∀ f, queriesOf queries' f = queriesOf queries f) →
        ∃ r', d.generate queries' = .ok r' ∧ r'.files.Perm r.files := by
  refine ⟨sourceFiles queries, firstSeen_sourceFiles queries, ?_, ?_, ?_, ?_⟩
  · have hfiles := generate_eq_ok_iff.mp h
    rw [QueryGroup.ofQueries_eq, List.forall₂_map_left_iff, List.forall₂_iff_zip] at hfiles
    refine List.forall₂_iff_zip.mpr ⟨hfiles.1, ?_⟩
    intro f out hmem
    exact generatedAlone_of_file (List.of_mem_zip hmem).1 (hfiles.2 hmem)
  · intro q hq
    refine ⟨q.filename, ⟨mem_sourceFiles.mpr ⟨q, hq, rfl⟩, mem_queriesOf.mpr ⟨hq, rfl⟩⟩, ?_⟩
    rintro f ⟨-, hf⟩
    exact (mem_queriesOf.mp hf).2.symm
  · exact perm_flatMap_queriesOf (nodup_sourceFiles queries)
      fun q hq => mem_sourceFiles.mpr ⟨q, hq, rfl⟩
  · intro queries' hsame
    exact generate_perm h hsame

/-- Three queries of two source files, the files interleaved. -/
theorem Driver.generate_partitions_interleaved :
    let queries := [Query.plain "A" .exec "SELECT 1" "b.sql", .plain "B" .exec "SELECT 2" "a.sql",
      .plain "C" .exec "SELECT 3" "b.sql"]
    ∃ r, Driver.pg.generate queries = .ok r ∧
      ∃ files : List String, FirstSeen queries files ∧
        List.Forall₂ (GeneratedAlone .pg queries) files r.files ∧
        (∀ q ∈ queries, ∃! f, f ∈ files ∧ q ∈ queriesOf queries f) ∧
        (files.flatMap (queriesOf queries)).Perm queries ∧
        ∀ queries', (∀ f, queriesOf queries' f = queriesOf queries f) →
          ∃ r', Driver.pg.generate queries' = .ok r' ∧ r'.files.Perm r.files := by
  intro queries
  have hsupported : ∀ q ∈ queries, Driver.pg.Supports q.command := by decide
  obtain ⟨r, hr⟩ := Driver.exists_generate hsupported
  exact ⟨r, hr, Driver.generate_partitions hr⟩

end QueryClient
