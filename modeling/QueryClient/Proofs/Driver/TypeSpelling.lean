/-
  QueryClient/Proofs/Driver/TypeSpelling.lean
  ===========================================
  **How a type name is spelled does not matter.** A name is looked up in a driver's table
  by a form of it that keeps neither its qualifier nor the size of its letters, nor, for
  the embedded drivers, white space. So spellings that differ in nothing else lead to one
  type.

  The embedded drivers take the small forms of all letters, not only of the ASCII ones.
  That makes no difference: the small form of a letter outside ASCII has a character
  outside ASCII in it, save for that of the Kelvin sign, which is `k`
  (`Text.exists_mem_lower`), and no name in the SQLite table has such a character or a `k`
  (`Driver.ascii_of_mem_sqliteTypes`).
-/
import Mathlib.Data.List.Basic
import QueryClient.Proofs.Driver.ColumnType
import QueryClient.Proofs.Text.Case

namespace QueryClient

open Script

/-! ### Forms of a name -/

namespace Driver

theorem afterLastDot_asciiLower (s : List Char) :
    afterLastDot (Text.asciiLower s) = Text.asciiLower (afterLastDot s) := by
  rw [afterLastDot, afterLastDot, Text.asciiLower, Text.asciiLower, ← List.map_reverse,
    List.takeWhile_map, List.map_reverse]
  congr 4
  funext c
  simp [Text.toLower_eq_dot_iff]

/-- A dot is not blank, so the last one stays where it is when blanks are left out. -/
theorem afterLastDot_filter (s : List Char) :
    afterLastDot (s.filter fun c => !Text.isBlank c) =
      (afterLastDot s).filter fun c => !Text.isBlank c := by
  rw [afterLastDot, afterLastDot, ← List.filter_reverse, List.takeWhile_filter,
    List.filter_reverse]
  congr 3
  funext c
  by_cases hdot : c = '.'
  · rw [hdot]
    decide
  · simp [hdot]

theorem normalize_qualified (d : Driver) (qualifier type : String) :
    d.normalize (qualifier ++ "." ++ type) = d.normalize type := by
  have hbare : afterLastDot (qualifier ++ "." ++ type).toList = afterLastDot type.toList := by
    rw [← afterLastDot_append qualifier.toList type.toList]
    simp
  simp only [normalize, hbare]

theorem normalize_asciiLower (d : Driver) (type : String) :
    d.normalize (String.ofList (Text.asciiLower type.toList)) = d.normalize type := by
  rw [normalize, normalize, String.toList_ofList, afterLastDot_asciiLower]
  simp [Text.asciiLower, List.filter_map, List.flatMap_map, Text.lower_toLower,
    Text.isBlank_toLower, Function.comp_def, Text.toLower_toLower]

theorem normalize_filter {d : Driver} (h : d.isEmbedded = true) (type : String) :
    d.normalize (String.ofList (type.toList.filter fun c => !Text.isBlank c)) =
      d.normalize type := by
  rw [normalize, normalize, String.toList_ofList, if_pos h, if_pos h, afterLastDot_filter,
    List.filter_filter]
  simp

/-- The form that the names of the SQLite table are documented to be looked up by: what
    follows the last dot, without white space, in small ASCII letters. -/
def plainName (type : String) : String :=
  String.ofList (Text.asciiLower ((afterLastDot type.toList).filter fun c => !Text.isBlank c))

/-! ### Look-ups -/

/-- No name in the SQLite table has a `k` or a character outside ASCII. -/
theorem ascii_of_mem_sqliteTypes (integer : TypeExpr) :
    ∀ row ∈ sqliteTypes integer, ∀ name ∈ row.1, ∀ c ∈ name.toList,
      c ≠ 'k' ∧ c.toNat < 128 := by
  simp [sqliteTypes]

theorem exists_sqliteTypes {d : Driver} (h : d.isEmbedded = true) :
    ∃ integer, d.types = sqliteTypes integer := by
  cases d with
  | betterSqlite3 safeIntegers => exact ⟨_, rfl⟩
  | turso => exact ⟨_, rfl⟩
  | pg => cases h
  | postgres => cases h
  | mysql2 o => cases h

theorem lookup_eq_none {d : Driver} (h : d.isEmbedded = true) {name : String}
    (hname : ∃ c ∈ name.toList, c = 'k' ∨ 128 ≤ c.toNat) : d.types.lookup name = none := by
  obtain ⟨integer, htypes⟩ := exists_sqliteTypes h
  obtain ⟨c, hc, hforeign⟩ := hname
  rw [htypes, TypeTable.lookup, Option.map_eq_none_iff, List.find?_eq_none]
  intro row hrow hlisted
  obtain ⟨hk, hascii⟩ :=
    ascii_of_mem_sqliteTypes integer row hrow name (List.contains_iff_mem.mp hlisted) c hc
  rcases hforeign with rfl | hforeign
  · exact hk rfl
  · omega

theorem lookup_normalize {d : Driver} (h : d.isEmbedded = true) (type : String) :
    d.types.lookup (d.normalize type) = d.types.lookup (plainName type) := by
  rw [normalize, if_pos h, plainName]
  generalize (afterLastDot type.toList).filter (fun c => !Text.isBlank c) = bare
  by_cases hforeign : ∃ c ∈ bare, 128 ≤ c.toNat
  · -- neither form is listed: both keep a trace of the foreign character
    obtain ⟨c, hc, hforeign⟩ := hforeign
    obtain ⟨e, he, hsmall⟩ := Text.exists_mem_lower hforeign
    rw [lookup_eq_none h, lookup_eq_none h]
    · refine ⟨c, ?_, Or.inr hforeign⟩
      rw [String.toList_ofList, Text.asciiLower, List.mem_map]
      exact ⟨c, hc, Text.toLower_of_not_ascii hforeign⟩
    · refine ⟨e, ?_, hsmall⟩
      rw [String.toList_ofList, List.mem_flatMap]
      exact ⟨c, hc, he⟩
  · have hlower : bare.flatMap Text.lower = Text.asciiLower bare := by
      rw [Text.asciiLower, List.map_eq_flatMap]
      apply List.flatMap_congr
      intro c hc
      exact Text.lower_of_ascii (Nat.lt_of_not_le fun hc' => hforeign ⟨c, hc, hc'⟩)
    rw [hlower]

/-! ### Columns -/

theorem columnType_congr {d : Driver} {type other : String}
    (h : d.normalize type = d.normalize other) (c : Column) :
    d.columnType (some { c with type? := some type }) =
      d.columnType (some { c with type? := some other }) := by
  simp [columnType, baseType, h, arrayLayers]

/-- **The spelling of a type name.** For every driver and column, the type is the same with
    and without a qualifier, and for names that differ in the size of ASCII letters only;
    for the embedded drivers also for names that differ in white space only. And although
    these drivers take all letters small, they find for every name what is listed for its
    plain form, and nothing for one with a character outside ASCII that is not blank. -/
theorem columnType_of_spelling (d : Driver) (c : Column) (type : String) :
    (∀ qualifier : String,
      d.columnType (some { c with type? := some (qualifier ++ "." ++ type) }) =
        d.columnType (some { c with type? := some type })) ∧
    (∀ other : String, Text.asciiLower type.toList = Text.asciiLower other.toList →
      d.columnType (some { c with type? := some type }) =
        d.columnType (some { c with type? := some other })) ∧
    (d.isEmbedded = true →
      (∀ other : String,
        (type.toList.filter fun ch => !Text.isBlank ch) =
          (other.toList.filter fun ch => !Text.isBlank ch) →
        d.columnType (some { c with type? := some type }) =
          d.columnType (some { c with type? := some other })) ∧
      d.types.lookup (d.normalize type) = d.types.lookup (plainName type) ∧
      ((∃ ch ∈ afterLastDot type.toList, Text.isBlank ch = false ∧ 128 ≤ ch.toNat) →
        d.types.lookup (d.normalize type) = none)) := by
  refine ⟨?qualifier, ?letters, ?embedded⟩
  case qualifier =>
    intro qualifier
    exact columnType_congr (normalize_qualified d qualifier type) c
  case letters =>
    intro other hletters
    apply columnType_congr
    rw [← normalize_asciiLower d type, hletters, normalize_asciiLower]
  case embedded =>
    intro hembedded
    refine ⟨?_, lookup_normalize hembedded type, ?_⟩
    · intro other hblanks
      apply columnType_congr
      rw [← normalize_filter hembedded type, hblanks, normalize_filter hembedded]
    · rintro ⟨ch, hch, hblank, hforeign⟩
      rw [lookup_normalize hembedded]
      apply lookup_eq_none hembedded
      refine ⟨ch, ?_, Or.inr hforeign⟩
      rw [plainName, String.toList_ofList, Text.asciiLower, List.mem_map]
      refine ⟨ch, ?_, Text.toLower_of_not_ascii hforeign⟩
      rw [List.mem_filter, hblank]
      exact ⟨hch, rfl⟩

/-- A name with a dotted capital, whose small form starts with an ASCII letter. -/
theorem columnType_of_spelling_dotted :
    let typed (type : String) := Driver.turso.columnType (some (.ofType "n" type))
    let bare (type : String) := type.toList.filter fun ch => !Text.isBlank ch
    Text.asciiLower "BİG INT".toList = Text.asciiLower "bİg int".toList ∧
      bare "BİG INT" = bare "BİGINT" ∧
      typed "main.t.BİG INT" = typed "BİG INT" ∧ typed "BİG INT" = typed "bİg int" ∧
      typed "BİG INT" = typed "BİGINT" ∧
      Driver.turso.types.lookup (Driver.turso.normalize "BİG INT") = none := by
  intro typed bare
  have hletters : Text.asciiLower "BİG INT".toList = Text.asciiLower "bİg int".toList := by
    decide
  have hblanks : bare "BİG INT" = bare "BİGINT" := by decide
  have hforeign : ∃ ch ∈ afterLastDot "BİG INT".toList,
      Text.isBlank ch = false ∧ 128 ≤ ch.toNat := ⟨'İ', by decide⟩
  obtain ⟨hqualifier, hother, hembedded⟩ :=
    columnType_of_spelling .turso (.ofType "n" "BİG INT") "BİG INT"
  obtain ⟨hspaced, -, hnone⟩ := hembedded rfl
  exact ⟨hletters, hblanks, hqualifier "main.t", hother _ hletters, hspaced _ hblanks,
    hnone hforeign⟩

end Driver
end QueryClient
