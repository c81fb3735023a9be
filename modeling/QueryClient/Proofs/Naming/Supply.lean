/-
  QueryClient/Proofs/Naming/Supply.lean
  =====================================
  **A supply never hands out a name twice.** The search for a free number is bounded by
  the count of issued names. The numbers that it looks at give different names, so more
  of them than there are issued names cannot all be taken: the search ends at a free
  one (`numbered_firstFree_not_mem`). From this one fact follows, by induction on the
  requests, that all names handed out are distinct, however the bases relate to each
  other: a base may equal another base, a numbered name or a fallback name.
-/
import Mathlib.Data.List.Nodup
import Mathlib.Data.List.Perm.Subperm
import QueryClient.Proofs.Naming.Identifier

namespace QueryClient.Naming

namespace Supply

/-! ### Numbered names -/

theorem numbered_of_lt {base : String} {n : Nat} (hn : 1 < n) :
    numbered base n = base ++ "_" ++ n.repr :=
  if_neg (Nat.not_le.mpr hn)

theorem toList_numbered {base : String} {n : Nat} (hn : 1 < n) :
    (numbered base n).toList = base.toList ++ '_' :: Nat.toDigits 10 n := by
  rw [numbered_of_lt hn, String.toList_append, String.toList_append, Nat.toList_repr]
  simp

/-- Different numbers give different names; 0 and 1 both stand for the base itself. -/
theorem numbered_injective {base : String} {m n : Nat} (hm : 1 ≤ m) (hn : 1 ≤ n)
    (h : numbered base m = numbered base n) : m = n := by
  have hlist := congrArg String.toList h
  rcases Nat.eq_or_lt_of_le hm with rfl | hm
  · rcases Nat.eq_or_lt_of_le hn with rfl | hn
    · rfl
    · rw [toList_numbered hn] at hlist
      simp [numbered] at hlist
  · rcases Nat.eq_or_lt_of_le hn with rfl | hn
    · rw [toList_numbered hm] at hlist
      simp [numbered] at hlist
    · rw [toList_numbered hm, toList_numbered hn] at hlist
      have hdigits := List.cons_inj_right _ |>.mp (List.append_cancel_left hlist)
      have hvalue := congrArg (fun ds => Nat.ofDigitChars 10 ds 0) hdigits
      simpa [Nat.ofDigitChars_ten_toDigits] using hvalue

/-! ### The search for a free number -/

variable {issued : List String} {base : String}

/-- Every number that the search passes by is taken. -/
theorem numbered_mem_of_lt_firstFree {steps n k : Nat} (hle : n ≤ k)
    (hlt : k < firstFree issued base steps n) : numbered base k ∈ issued := by
  induction steps generalizing n with
  | zero => exact absurd hlt (Nat.not_lt.mpr hle)
  | succ steps ih =>
    rw [firstFree] at hlt
    split at hlt
    · rename_i htaken
      rcases Nat.eq_or_lt_of_le hle with rfl | hnext
      · exact List.contains_iff_mem.mp htaken
      · exact ih hnext hlt
    · exact absurd hlt (Nat.not_lt.mpr hle)

/-- A search that ends at a taken number has used up its steps. -/
theorem firstFree_eq_of_mem {steps n : Nat}
    (h : numbered base (firstFree issued base steps n) ∈ issued) :
    firstFree issued base steps n = n + steps := by
  induction steps generalizing n with
  | zero => rfl
  | succ steps ih =>
    rw [firstFree] at h ⊢
    split at h
    · rename_i htaken
      rw [if_pos htaken, ih h]
      omega
    · rename_i hfree
      exact absurd (List.contains_iff_mem.mpr h) hfree

/-- With as many steps as there are issued names, the search ends at a free number:
    otherwise one more distinct name would be issued than there are issued names. -/
theorem numbered_firstFree_not_mem {steps n : Nat} (hn : 1 ≤ n)
    (hsteps : issued.length ≤ steps) :
    numbered base (firstFree issued base steps n) ∉ issued := by
  intro hlast
  have hend := firstFree_eq_of_mem hlast
  let names := (List.range (steps + 1)).map fun i => numbered base (n + i)
  have hnodup : names.Nodup := by
    refine List.Nodup.map_on ?_ List.nodup_range
    intro i _ j _ hij
    have := numbered_injective (by omega) (by omega) hij
    omega
  have hissued : names ⊆ issued := by
    intro name hname
    obtain ⟨i, hi, rfl⟩ := List.mem_map.mp hname
    have hi := List.mem_range.mp hi
    rcases Nat.lt_or_ge i steps with hlt | hge
    · exact numbered_mem_of_lt_firstFree (Nat.le_add_right n i) (by rw [hend]; omega)
    · have heq : n + i = firstFree issued base steps n := by omega
      rw [heq]
      exact hlast
  have hlength := (hnodup.subperm hissued).length_le
  simp only [names, List.length_map, List.length_range] at hlength
  omega

/-! ### One request -/

/-- What is handed out has not been handed out before. -/
theorem take_not_mem (s : Supply) (base : String) : (s.take base).1 ∉ s.issued :=
  numbered_firstFree_not_mem (Nat.le_add_left 1 (s.last base)) (Nat.le_refl _)

theorem take_issued (s : Supply) (base : String) :
    (s.take base).2.issued = (s.take base).1 :: s.issued := rfl

/-! ### All requests -/

theorem length_takeAll (s : Supply) (bases : List String) :
    (s.takeAll bases).length = bases.length := by
  induction bases generalizing s with
  | nil => rfl
  | cons base bases ih => simp only [takeAll, List.length_cons, ih]

theorem not_mem_issued_of_mem_takeAll {s : Supply} {bases : List String} {name : String}
    (h : name ∈ s.takeAll bases) : name ∉ s.issued := by
  induction bases generalizing s with
  | nil => cases h
  | cons base bases ih =>
    rcases List.mem_cons.mp h with rfl | hrest
    · exact take_not_mem s base
    · intro hissued
      exact ih hrest (by rw [take_issued]; exact List.mem_cons_of_mem _ hissued)

theorem nodup_takeAll (s : Supply) (bases : List String) : (s.takeAll bases).Nodup := by
  induction bases generalizing s with
  | nil => exact List.nodup_nil
  | cons base bases ih =>
    refine List.nodup_cons.mpr ⟨?_, ih _⟩
    intro hagain
    exact not_mem_issued_of_mem_takeAll hagain (by rw [take_issued]; exact List.mem_cons_self)

theorem exists_numbered_of_mem_takeAll {s : Supply} {bases : List String} {name : String}
    (h : name ∈ s.takeAll bases) : ∃ base ∈ bases, ∃ n, name = numbered base n := by
  induction bases generalizing s with
  | nil => cases h
  | cons base bases ih =>
    rcases List.mem_cons.mp h with rfl | hrest
    · exact ⟨base, List.mem_cons_self, s.next base, rfl⟩
    · obtain ⟨other, hmem, n, hn⟩ := ih hrest
      exact ⟨other, List.mem_cons_of_mem _ hmem, n, hn⟩

end Supply

/-! ### Field names -/

theorem length_baseNames (fallback : String) (i : Nat) (declared : List (Option String)) :
    (baseNames fallback i declared).length = declared.length := by
  induction declared generalizing i with
  | nil => rfl
  | cons column? rest ih => cases column? <;> simp only [baseNames, List.length_cons, ih]

theorem baseNames_append (fallback : String) (i : Nat) (xs ys : List (Option String)) :
    baseNames fallback i (xs ++ ys) =
      baseNames fallback i xs ++ baseNames fallback (i + xs.length) ys := by
  induction xs generalizing i with
  | nil => rfl
  | cons column? rest ih =>
    have hposition : i + 1 + rest.length = i + (rest.length + 1) := by omega
    cases column? <;>
      simp only [List.cons_append, baseNames, ih, hposition, List.length_cons]

theorem length_fieldNames (fallback : String) (declared : List (Option String)) :
    (fieldNames fallback declared).length = declared.length := by
  rw [fieldNames, Supply.length_takeAll, length_baseNames]

theorem nodup_fieldNames (fallback : String) (declared : List (Option String)) :
    (fieldNames fallback declared).Nodup :=
  Supply.nodup_takeAll _ _

theorem isIdentifier_of_mem_fieldNames {fallback : String}
    (hfallback : isIdentifier fallback.toList = true) {declared : List (Option String)}
    {name : String} (h : name ∈ fieldNames fallback declared) :
    isIdentifier name.toList = true := by
  obtain ⟨base, hbase, n, rfl⟩ := Supply.exists_numbered_of_mem_takeAll h
  exact isIdentifier_numbered (isIdentifier_of_mem_baseNames hfallback hbase) n

/-- **Field names are distinct identifiers.** Whatever the columns of a query are called,
    or whether they are called anything at all, each gets a field of its own, and every
    field name is an identifier. -/
theorem fieldNames_distinct_identifiers {fallback : String}
    (hfallback : fallback = "arg" ∨ fallback = "col") (declared : List (Option String)) :
    (fieldNames fallback declared).length = declared.length ∧
      (fieldNames fallback declared).Nodup ∧
      ∀ name ∈ fieldNames fallback declared, isIdentifier name.toList = true := by
  have hidentifier : isIdentifier fallback.toList = true := by
    rcases hfallback with rfl | rfl
    · decide
    · decide
  refine ⟨length_fieldNames fallback declared, nodup_fieldNames fallback declared, ?_⟩
  intro name hname
  exact isIdentifier_of_mem_fieldNames hidentifier hname

/-- A repeated name, a name that looks like a numbered one, one that looks like a
    fallback, and one that differs from it in letter case only. -/
theorem fieldNames_distinct_identifiers_lookalikes :
    ("arg" = "arg" ∨ "arg" = "col") ∧
      let names := fieldNames "arg" [some "id", some "id_2", some "id", none, some "arg3", some "Arg3"]
      names.length = 6 ∧ names.Nodup ∧ ∀ name ∈ names, isIdentifier name.toList = true :=
  ⟨Or.inl rfl, fieldNames_distinct_identifiers (Or.inl rfl) _⟩

example : fieldNames "arg" [some "id", some "id_2", some "id", none, some "arg3", some "Arg3"] =
    ["id", "id_2", "id_3", "arg3", "arg3_2", "arg3_3"] := by
  cbv

end QueryClient.Naming
