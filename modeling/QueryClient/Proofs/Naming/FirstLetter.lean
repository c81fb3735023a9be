/-
  QueryClient/Proofs/Naming/FirstLetter.lean
  ==========================================
  **First letters of generated names.** The function of a query starts with a small letter
  or an underscore and never with an ASCII capital, whatever the query is called
  (`functionName_append_ne`). That keeps functions apart from everything that is named in capitals.

  Different queries may still get one function or one interface: `GetUser` and `getUser`
  have the same function, `GetUser` and `get_user` the same interfaces. For names in Pascal
  case, a capital followed by letters and digits, nothing is lost: the name comes back from
  the interfaces (`typeName_of_isPascal`) and from the function (`functionName_inj`).
-/
import QueryClient.Proofs.Naming.Identifier
import QueryClient.Proofs.Text.Case

namespace QueryClient

namespace Naming

/-! ### Names that start with a capital -/

/-- Does the name start with an ASCII capital? -/
def isCapitalized (s : String) : Bool := s.toList.head?.any Char.isUpper

theorem head?_sanitize (s : List Char) :
    (sanitize s).head? = some '_' ∨ (sanitize s).head? = s.head? := by
  cases s with
  | nil => exact Or.inl rfl
  | cons c cs =>
    rw [sanitize, replaceForeign, List.map_cons]
    dsimp only
    by_cases hdigit : (if isIdentifierChar c then c else '_').isDigit = true
    · rw [if_pos hdigit]
      exact Or.inl rfl
    · rw [if_neg hdigit]
      by_cases hc : isIdentifierChar c = true
      · exact Or.inr (by rw [if_pos hc]; rfl)
      · exact Or.inl (by rw [if_neg hc]; rfl)

theorem isCapitalized_functionName (query : String) :
    isCapitalized (functionName query) = false := by
  have hsmall : (sanitize (lowerFirst query.toList)).head?.any Char.isUpper = false := by
    rcases head?_sanitize (lowerFirst query.toList) with h | h
    · rw [h]
      rfl
    · rw [h]
      cases query.toList with
      | nil => rfl
      | cons c cs =>
        obtain ⟨d, ds, hlower, hd, -⟩ := Text.exists_lower_eq_cons c
        rw [lowerFirst, hlower]
        exact hd
  rw [isCapitalized, functionName, avoidReserved]
  split
  · rw [String.toList_append]
    rfl
  · rw [String.toList_ofList]
    exact hsmall

theorem functionName_ne_nil (query : String) : (functionName query).toList ≠ [] := by
  intro hnil
  have hidentifier := isIdentifier_functionName query
  rw [hnil] at hidentifier
  cases hidentifier

/-- A function, and what is named after it, differs from everything in capitals. -/
theorem functionName_append_ne {name : String} (h : isCapitalized name = true)
    (query behind : String) : functionName query ++ behind ≠ name := by
  rintro rfl
  have hsmall := isCapitalized_functionName query
  rw [isCapitalized] at h hsmall
  cases hname : (functionName query).toList with
  | nil => exact functionName_ne_nil query hname
  | cons c cs =>
    rw [String.toList_append, hname] at h
    rw [hname] at hsmall
    exact Bool.false_ne_true (hsmall.symm.trans h)

/-! ### Names in Pascal case -/

/-- An ASCII capital, and behind it nothing but ASCII letters and digits. -/
def isPascal (s : String) : Bool :=
  match s.toList with
  | [] => false
  | c :: cs => c.isUpper && cs.all Char.isAlphanum

theorem exists_of_isPascal {s : String} (h : isPascal s = true) :
    ∃ c cs, s.toList = c :: cs ∧ c.isUpper = true ∧ ∀ d ∈ cs, d.isAlphanum = true := by
  rw [isPascal] at h
  cases hs : s.toList with
  | nil =>
    rw [hs] at h
    cases h
  | cons c cs =>
    rw [hs] at h
    obtain ⟨hc, hcs⟩ := Bool.and_eq_true_iff.mp h
    exact ⟨c, cs, rfl, hc, List.all_eq_true.mp hcs⟩

theorem sanitize_of_isIdentifier {s : List Char} (h : isIdentifier s = true) : sanitize s = s := by
  have hkeep : replaceForeign s = s := by
    rw [replaceForeign, List.map_congr_left, List.map_id]
    intro c hc
    rw [if_pos (List.all_eq_true.mp (all_of_isIdentifier h) c hc)]
    rfl
  rw [sanitize, hkeep]
  cases s with
  | nil => cases h
  | cons c cs =>
    have hdigit : c.isDigit = false := by
      simpa using (Bool.and_eq_true_iff.mp h).1
    simp [hdigit]

theorem isIdentifier_letter {c : Char} {cs : List Char} (hc : c.isAlpha = true)
    (hcs : ∀ d ∈ cs, d.isAlphanum = true) : isIdentifier (c :: cs) = true := by
  have hdigit : c.isDigit = false := by
    rw [← Bool.not_eq_true]
    intro hdigit
    have hlast := (Text.isDigit_iff.mp hdigit).2
    rcases Bool.or_eq_true_iff.mp hc with hupper | hlower
    · have hfirst := (Text.isUpper_iff.mp hupper).1
      omega
    · have hfirst := (Text.isLower_iff.mp hlower).1
      omega
  have hall : (c :: cs).all isIdentifierChar = true := by
    rw [List.all_eq_true]
    intro d hd
    have halphanum : d.isAlphanum = true := by
      rcases List.mem_cons.mp hd with rfl | hd
      · exact Text.isAlphanum_of_isAlpha hc
      · exact hcs d hd
    rw [isIdentifierChar, halphanum, Bool.true_or, Bool.true_or]
  rw [isIdentifier, hdigit, hall]
  rfl

theorem pascalFrom_false {s : List Char} (h : '_' ∉ s) : pascalFrom false s = s := by
  induction s with
  | nil => rfl
  | cons c cs ih =>
    rw [List.mem_cons, not_or] at h
    rw [pascalFrom, if_neg (Ne.symm h.1), ih h.2]
    rfl

theorem underscore_notMem {s : List Char} (h : ∀ c ∈ s, c.isAlphanum = true) : '_' ∉ s :=
  fun hmem => absurd (h '_' hmem) (by decide)

/-- No reserved word starts with a capital, and none ends like the constant of a query. -/
theorem reservedWords_shape : ∀ w ∈ reservedWords,
    isCapitalized w = false ∧ ¬"Query".toList <:+ '_' :: w.toList := by
  decide +kernel

theorem typeName_of_isPascal {query : String} (h : isPascal query = true) :
    typeName query = query := by
  obtain ⟨c, cs, hquery, hc, hcs⟩ := exists_of_isPascal h
  have hunderscore : c ≠ '_' := by
    rintro rfl
    exact absurd hc (by decide)
  have halpha := Text.isAlpha_of_isUpper hc
  have hpascal : pascalCase query.toList = query.toList := by
    rw [hquery, pascalCase, pascalFrom, if_neg hunderscore, if_pos rfl,
      (Text.capital_of_isUpper hc).2.1, pascalFrom_false (underscore_notMem hcs)]
    rfl
  have hsanitize : sanitize query.toList = query.toList := by
    rw [hquery]
    exact sanitize_of_isIdentifier (isIdentifier_letter halpha hcs)
  have hreserved : ¬isReserved query = true := by
    intro hmem
    have hsmall := (reservedWords_shape query (List.contains_iff_mem.mp hmem)).1
    rw [isCapitalized, hquery] at hsmall
    exact Bool.false_ne_true (hsmall.symm.trans hc)
  rw [typeName, hpascal, hsanitize, String.ofList_toList, avoidReserved, if_neg hreserved]

/-- The function of a query in Pascal case: the name with a small first letter, and an
    underscore in front if that is a reserved word. -/
theorem functionName_of_isPascal {query : String} (h : isPascal query = true) :
    ∃ c cs, query.toList = c :: cs ∧ c.isUpper = true ∧
      functionName query = avoidReserved (String.ofList (c.toLower :: cs)) := by
  obtain ⟨c, cs, hquery, hc, hcs⟩ := exists_of_isPascal h
  have hletter := Text.capital_of_isUpper hc
  have halpha := Text.isAlpha_of_isLower hletter.2.2.2
  have hlower : lowerFirst query.toList = c.toLower :: cs := by
    rw [hquery, lowerFirst, hletter.1]
    rfl
  refine ⟨c, cs, hquery, hc, ?_⟩
  rw [functionName, hlower, sanitize_of_isIdentifier (isIdentifier_letter halpha hcs)]

/-- A name stays as it is, unless it is a reserved word; then an underscore comes in front. -/
theorem avoidReserved_cases (s : String) :
    avoidReserved s = s ∨ s ∈ reservedWords ∧ (avoidReserved s).toList = '_' :: s.toList := by
  rw [avoidReserved]
  split
  · rename_i hreserved
    exact Or.inr ⟨List.contains_iff_mem.mp hreserved, by rw [String.toList_append]; rfl⟩
  · exact Or.inl rfl

theorem toLower_ne_underscore {c : Char} (h : c.isUpper = true) : c.toLower ≠ '_' := by
  intro heq
  have hlower := (Text.capital_of_isUpper h).2.2.2
  rw [heq] at hlower
  exact absurd hlower (by decide)

theorem toLower_inj {c d : Char} (hc : c.isUpper = true) (hd : d.isUpper = true)
    (h : c.toLower = d.toLower) : c = d := by
  rw [← (Text.capital_of_isUpper hc).2.2.1, h, (Text.capital_of_isUpper hd).2.2.1]

/-- The function of a query `a` is the function of `b` with `behind` after it, only if the
    queries are. For a reserved word this has to be ruled out. -/
theorem eq_append_of_functionName_eq {a b behind : String} (ha : isPascal a = true)
    (hb : isPascal b = true) (hbehind : behind = "" ∨ behind = "Query")
    (h : functionName a = functionName b ++ behind) : a = b ++ behind := by
  obtain ⟨c, cs, hcs, hc, hnamea⟩ := functionName_of_isPascal ha
  obtain ⟨d, ds, hds, hd, hnameb⟩ := functionName_of_isPascal hb
  have hlists : (functionName a).toList = (functionName b).toList ++ behind.toList := by
    rw [h, String.toList_append]
  have hletters (heq : c.toLower :: cs = d.toLower :: (ds ++ behind.toList)) :
      a = b ++ behind := by
    obtain ⟨hhead, htail⟩ := List.cons.inj heq
    rw [← String.toList_inj, String.toList_append, hcs, hds, htail, toLower_inj hc hd hhead]
    rfl
  rw [hnamea, hnameb] at hlists
  rcases avoidReserved_cases (String.ofList (c.toLower :: cs)) with hplain | ⟨hword, hmarked⟩
  · rcases avoidReserved_cases (String.ofList (d.toLower :: ds)) with hplain' | ⟨-, hmarked'⟩
    · rw [hplain, hplain', String.toList_ofList, String.toList_ofList] at hlists
      exact hletters hlists
    · rw [hplain, hmarked', String.toList_ofList] at hlists
      exact absurd (List.cons.inj hlists).1 (toLower_ne_underscore hc)
  · rcases avoidReserved_cases (String.ofList (d.toLower :: ds)) with hplain' | ⟨-, hmarked'⟩
    · rw [hmarked, hplain', String.toList_ofList, String.toList_ofList] at hlists
      exact absurd (List.cons.inj hlists).1.symm (toLower_ne_underscore hd)
    · rcases hbehind with rfl | rfl
      · rw [hmarked, hmarked', String.toList_ofList, String.toList_ofList] at hlists
        exact hletters (List.cons.inj hlists).2
      · rw [hmarked] at hlists
        exact absurd ⟨_, hlists.symm⟩ (reservedWords_shape _ hword).2

theorem functionName_inj {a b : String} (ha : isPascal a = true) (hb : isPascal b = true)
    (h : functionName a = functionName b) : a = b := by
  have heq : a = b ++ "" := eq_append_of_functionName_eq ha hb (Or.inl rfl)
    (by rw [h, String.append_empty])
  rw [heq, String.append_empty]

theorem eq_of_functionName_eq_mysql {query : String} (h : isPascal query = true)
    (hname : functionName query = "mysql") : query = "Mysql" := by
  have hfunction : functionName query = functionName "Mysql" := by
    rw [hname]
    decide +kernel
  exact functionName_inj h (by decide +kernel) hfunction

end Naming
end QueryClient
