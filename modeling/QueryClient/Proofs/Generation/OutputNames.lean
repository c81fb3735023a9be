/-
  QueryClient/Proofs/Generation/OutputNames.lean
  ==============================================
  **Which source files share an output file.** An output file is named after its source
  file alone: the first dot becomes an underscore, all else stays. A run does not look at
  the other names, so two source files get one name exactly where the two ways of writing
  it meet. There are two such cases (`EarlierDot`). Up to a certain place the names agree
  and have no dot; there the one has a dot and the other an underscore. After that

  * either both go on alike and without a dot, as `users.sql` and `users_sql`;
  * or the other has its first dot later, where the one has an underscore, as
    `users.by_name.sql` and `users_by.name.sql`.

  Hence the files of a run have distinct names exactly if no two source files are such
  lookalikes (`Request.nodup_names_iff`).
-/
import QueryClient.Proofs.Generation.Refusal

namespace QueryClient

namespace Naming

variable {a b p q : List Char}

/-! ### The first dot -/

theorem replaceFirstDot_of_notMem (h : '.' ∉ a) : replaceFirstDot a = a := by
  induction a with
  | nil => rfl
  | cons c cs ih =>
    rw [List.mem_cons, not_or] at h
    rw [replaceFirstDot, if_neg (Ne.symm h.1), ih h.2]

theorem replaceFirstDot_append (h : '.' ∉ p) :
    replaceFirstDot (p ++ '.' :: q) = p ++ '_' :: q := by
  induction p with
  | nil => rfl
  | cons c cs ih =>
    rw [List.mem_cons, not_or] at h
    rw [List.cons_append, replaceFirstDot, if_neg (Ne.symm h.1), ih h.2, List.cons_append]

/-! ### Lookalikes -/

/-- The first difference is a dot in `a` and an underscore in `b`, with no dot before it;
    from there on both go on alike without a dot, or `b` has its first dot where `a` has
    an underscore, and that is all they differ in. -/
inductive EarlierDot : List Char → List Char → Prop where
  | only {p q : List Char} (hp : '.' ∉ p) (hq : '.' ∉ q) :
      EarlierDot (p ++ '.' :: q) (p ++ '_' :: q)
  | first {p m q : List Char} (hp : '.' ∉ p) (hm : '.' ∉ m) :
      EarlierDot (p ++ '.' :: (m ++ '_' :: q)) (p ++ '_' :: (m ++ '.' :: q))

theorem EarlierDot.cons {c : Char} (hc : c ≠ '.') (h : EarlierDot a b) :
    EarlierDot (c :: a) (c :: b) := by
  have hfront {p : List Char} (hp : '.' ∉ p) : '.' ∉ c :: p := by
    rw [List.mem_cons, not_or]
    exact ⟨Ne.symm hc, hp⟩
  cases h with
  | only hp hq => exact EarlierDot.only (hfront hp) hq
  | first hp hm => exact EarlierDot.first (hfront hp) hm

theorem EarlierDot.replaceFirstDot_eq (h : EarlierDot a b) :
    replaceFirstDot a = replaceFirstDot b := by
  cases h with
  | @only p q hp hq =>
    have hnone : '.' ∉ p ++ '_' :: q := by
      simp [hp, hq]
    rw [replaceFirstDot_append hp, replaceFirstDot_of_notMem hnone]
  | @first p m q hp hm =>
    have hbefore : '.' ∉ p ++ '_' :: m := by
      simp [hp, hm]
    have hsecond := replaceFirstDot_append (q := q) hbefore
    rw [List.append_assoc, List.append_assoc] at hsecond
    rw [replaceFirstDot_append hp]
    exact hsecond.symm

theorem EarlierDot.ne (h : EarlierDot a b) : a ≠ b := by
  cases h with
  | only hp hq => simp
  | first hp hm => simp

/-- A dot at the front against any other front. -/
theorem earlierDot_of_replaceFirstDot (h : '_' :: a = replaceFirstDot b) (hb : b ≠ '.' :: a) :
    EarlierDot ('.' :: a) b := by
  cases b with
  | nil => cases h
  | cons c cs =>
    rw [replaceFirstDot] at h
    by_cases hc : c = '.'
    · rw [if_pos hc] at h
      cases h
      exact absurd (by rw [hc]) hb
    · rw [if_neg hc] at h
      obtain ⟨rfl, rfl⟩ := List.cons.inj h
      by_cases hdot : '.' ∈ cs
      · obtain ⟨m, q, rfl, hm⟩ := List.eq_append_cons_of_mem hdot
        rw [replaceFirstDot_append hm]
        exact EarlierDot.first List.not_mem_nil hm
      · rw [replaceFirstDot_of_notMem hdot]
        exact EarlierDot.only List.not_mem_nil hdot

theorem replaceFirstDot_eq_iff :
    replaceFirstDot a = replaceFirstDot b ↔ a = b ∨ EarlierDot a b ∨ EarlierDot b a := by
  constructor
  · intro h
    induction a generalizing b with
    | nil =>
      cases b with
      | nil => exact Or.inl rfl
      | cons d ds =>
        rw [replaceFirstDot, replaceFirstDot] at h
        split at h <;> cases h
    | cons c cs ih =>
      by_cases heq : c :: cs = b
      · exact Or.inl heq
      by_cases hc : c = '.'
      · -- the dot is at the front of the one
        subst hc
        exact Or.inr (Or.inl (earlierDot_of_replaceFirstDot h (Ne.symm heq)))
      cases b with
      | nil =>
        simp [replaceFirstDot, hc] at h
      | cons d ds =>
        by_cases hd : d = '.'
        · -- it is at the front of the other
          subst hd
          exact Or.inr (Or.inr (earlierDot_of_replaceFirstDot h.symm heq))
        rw [replaceFirstDot, replaceFirstDot, if_neg hc, if_neg hd] at h
        obtain ⟨rfl, hrest⟩ := List.cons.inj h
        rcases ih hrest with rfl | hleft | hright
        · exact absurd rfl heq
        · exact Or.inr (Or.inl (hleft.cons hc))
        · exact Or.inr (Or.inr (hright.cons hc))
  · rintro (rfl | hleft | hright)
    · rfl
    · exact hleft.replaceFirstDot_eq
    · exact hright.replaceFirstDot_eq.symm

/-- Two names of source files that differ, but not in the name of the output file. -/
def Lookalikes (f g : String) : Prop :=
  EarlierDot f.toList g.toList ∨ EarlierDot g.toList f.toList

theorem Lookalikes.ne {f g : String} (h : Lookalikes f g) : f ≠ g := by
  rintro rfl
  rcases h with h | h
  · exact h.ne rfl
  · exact h.ne rfl

end Naming

open Naming

/-! ### The files of a run -/

namespace Driver

theorem outputName_eq_iff {f g : String} :
    outputName f = outputName g ↔ f = g ∨ Lookalikes f g := by
  rw [outputName, outputName, ← String.toList_inj, String.toList_append, String.toList_append,
    List.append_left_inj, fileStem, fileStem, String.toList_ofList, String.toList_ofList,
    replaceFirstDot_eq_iff, String.toList_inj, Lookalikes]

end Driver

theorem nodup_map_outputName_iff (queries : List Query) :
    ((sourceFiles queries).map Driver.outputName).Nodup ↔
      ∀ q ∈ queries, ∀ q' ∈ queries, ¬Lookalikes q.filename q'.filename := by
  rw [List.nodup_map_iff_inj_on (nodup_sourceFiles queries)]
  constructor
  · intro hinj q hq q' hq' hlook
    have hfile := mem_sourceFiles.mpr ⟨q, hq, rfl⟩
    have hfile' := mem_sourceFiles.mpr ⟨q', hq', rfl⟩
    exact hlook.ne (hinj _ hfile _ hfile' (Driver.outputName_eq_iff.mpr (Or.inr hlook)))
  · intro hnone f hf g hg heq
    obtain ⟨q, hq, rfl⟩ := mem_sourceFiles.mp hf
    obtain ⟨q', hq', rfl⟩ := mem_sourceFiles.mp hg
    rcases Driver.outputName_eq_iff.mp heq with hsame | hlook
    · exact hsame
    · exact absurd hlook (hnone q hq q' hq')

namespace Request

/-- **Names of output files.** A successful run names its files after the source files, in
    the order in which these are first seen. The names are distinct exactly if no two
    queries come from lookalike source files. -/
theorem nodup_names_iff {r : Request} {out : Response} (h : r.generate = .ok out) :
    (∃ files, FirstSeen r.queries files ∧
      out.files.map (·.name) = files.map Driver.outputName) ∧
    ((out.files.map (·.name)).Nodup ↔
      ∀ q ∈ r.queries, ∀ q' ∈ r.queries, ¬Lookalikes q.filename q'.filename) := by
  obtain ⟨d, -, hrun⟩ := exists_driver_of_generate h
  have hnames := Driver.map_name_files hrun
  refine ⟨⟨sourceFiles r.queries, firstSeen_sourceFiles r.queries, hnames⟩, ?_⟩
  rw [hnames]
  exact nodup_map_outputName_iff r.queries

/-- Names that differ in a dot and an underscore, but do not come to the same. -/
def nearNames : Request where
  queries := [.plain "A" .exec "SELECT 1" "users.sql", .plain "B" .exec "SELECT 2" "users.v2.sql",
    .plain "C" .exec "SELECT 3" "users_v2.sql"]
  settings := Text.utf8 "\x7b\"driver\":\"pg\"\x7d"

theorem nodup_names_nearNames :
    ∃ out, nearNames.generate = .ok out ∧
      (∃ files, FirstSeen nearNames.queries files ∧
        out.files.map (·.name) = files.map Driver.outputName) ∧
      ((out.files.map (·.name)).Nodup ↔
        ∀ q ∈ nearNames.queries, ∀ q' ∈ nearNames.queries, ¬Lookalikes q.filename q'.filename) ∧
      (out.files.map (·.name)).Nodup := by
  have hdriver : Settings.selectDriver nearNames.settings = .ok .pg := rfl
  have hsupported : ∀ q ∈ nearNames.queries, Driver.pg.Supports q.command := by decide
  obtain ⟨out, hrun, hout⟩ := exists_generate hdriver hsupported
  obtain ⟨hfiles, hiff⟩ := nodup_names_iff hrun
  refine ⟨out, hrun, hfiles, hiff, ?_⟩
  rw [Driver.map_name_files hout]
  decide +kernel

/-- Two source files that each have a dot where the other has an underscore. -/
def swappedMarks : Request where
  queries := [.plain "A" .exec "SELECT 1" "users.by_name.sql",
    .plain "B" .exec "SELECT 2" "users_by.name.sql"]
  settings := Text.utf8 "\x7b\"driver\":\"pg\"\x7d"

/-- Distinct source files need not have distinct output files. -/
theorem names_clash_swappedMarks :
    (swappedMarks.queries.map (·.filename)).Nodup ∧
      ∃ out, swappedMarks.generate = .ok out ∧ ¬(out.files.map (·.name)).Nodup := by
  have hdriver : Settings.selectDriver swappedMarks.settings = .ok .pg := rfl
  have hsupported : ∀ q ∈ swappedMarks.queries, Driver.pg.Supports q.command := by decide
  obtain ⟨out, hrun, hout⟩ := exists_generate hdriver hsupported
  refine ⟨by decide, out, hrun, ?_⟩
  rw [Driver.map_name_files hout]
  decide +kernel

end Request
end QueryClient
