/-
  QueryClient/Proofs/Naming/Requests.lean
  =======================================
  **A supply, request by request.** The answer to a request follows from the requests
  before it and their answers (`Answer`); what else a supply remembers is only a way to
  find it faster. A base that is new, and that no other base has led to, is handed out
  as it is. Any other base gets the least number past its last one whose name is free.

  The search for that number is written down here as what it does when nothing bounds its
  steps (`Search`). It ends nevertheless, and a supply has its result: that is the count of
  issued names against the count of candidates, `take_not_mem`.
-/
import Mathlib.Data.List.Induction
import Mathlib.Order.Bounds.Defs
import QueryClient.Proofs.Naming.Supply

namespace QueryClient.Naming

namespace Supply

/-! ### Requests in a row -/

/-- A supply after requests for the given bases. -/
def after (s : Supply) (bases : List String) : Supply :=
  bases.foldl (fun s base => (s.take base).2) s

theorem after_concat (s : Supply) (bases : List String) (base : String) :
    s.after (bases ++ [base]) = ((s.after bases).take base).2 := by
  rw [after, List.foldl_append]
  rfl

theorem takeAll_append (s : Supply) (xs ys : List String) :
    s.takeAll (xs ++ ys) = s.takeAll xs ++ (s.after xs).takeAll ys := by
  induction xs generalizing s with
  | nil => rfl
  | cons x xs ih =>
    rw [List.cons_append, takeAll, takeAll, ih, List.cons_append]
    rfl

theorem takeAll_concat (s : Supply) (bases : List String) (base : String) :
    s.takeAll (bases ++ [base]) = s.takeAll bases ++ [((s.after bases).take base).1] :=
  takeAll_append s bases [base]

/-- Answers stay what they are, whatever is asked for later. -/
theorem takeAll_prefix (s : Supply) (xs ys : List String) :
    s.takeAll xs <+: s.takeAll (xs ++ ys) := by
  rw [takeAll_append]
  exact List.prefix_append _ _

theorem mem_issued_after {bases : List String} {name : String} :
    name ∈ (empty.after bases).issued ↔ name ∈ empty.takeAll bases := by
  induction bases using List.reverseRecOn with
  | nil => rfl
  | append_singleton bases base ih =>
    rw [after_concat, take_issued, takeAll_concat, List.mem_cons, List.mem_append,
      List.mem_singleton, ih, or_comm]

theorem last_take (s : Supply) (asked base : String) :
    (s.take asked).2.last base = if base = asked then s.next asked else s.last base := by
  change (((asked, s.next asked) :: s.numbers).lookup base).getD 0 = _
  by_cases h : base = asked
  · rw [if_pos h, h, List.lookup_cons_self]
    rfl
  · rw [if_neg h, List.lookup_cons, beq_false_of_ne h]
    rfl

/-! ### The search -/

/-- The search for a free number, from the first number that it looks at to the one that it
    ends at: a free number ends it, behind a taken one it goes on. A search that meets
    taken numbers only has no result. -/
inductive Search (names : List String) (base : String) : Nat → Nat → Prop where
  | free {n : Nat} (hfree : numbered base n ∉ names) : Search names base n n
  | taken {n m : Nat} (htaken : numbered base n ∈ names) (hnext : Search names base (n + 1) m) :
      Search names base n m

variable {names : List String} {base : String} {n m : Nat}

theorem search_firstFree {steps : Nat}
    (h : numbered base (firstFree names base steps n) ∉ names) :
    Search names base n (firstFree names base steps n) := by
  induction steps generalizing n with
  | zero => exact Search.free h
  | succ steps ih =>
    rw [firstFree] at h ⊢
    split at h
    · rename_i htaken
      rw [if_pos htaken]
      exact Search.taken (List.contains_iff_mem.mp htaken) (ih h)
    · rename_i hfree
      rw [if_neg hfree]
      exact Search.free h

/-- The search of a supply ends, and `next` is its result. -/
theorem search_next (s : Supply) (base : String) :
    Search s.issued base (s.last base + 1) (s.next base) :=
  search_firstFree (take_not_mem s base)

theorem Search.congr {others : List String} (hmem : ∀ name, name ∈ names ↔ name ∈ others)
    (h : Search names base n m) : Search others base n m := by
  induction h with
  | free hfree => exact Search.free fun hmember => hfree ((hmem _).mpr hmember)
  | taken htaken _ ih => exact Search.taken ((hmem _).mp htaken) ih

theorem Search.le (h : Search names base n m) : n ≤ m := by
  induction h with
  | free _ => exact Nat.le_refl _
  | taken _ _ ih => exact Nat.le_of_succ_le ih

theorem Search.not_mem (h : Search names base n m) : numbered base m ∉ names := by
  induction h with
  | free hfree => exact hfree
  | taken _ _ ih => exact ih

/-- Behind a taken number the search goes on with the next one. -/
theorem Search.next (h : Search names base n m) (htaken : numbered base n ∈ names) :
    Search names base (n + 1) m := by
  cases h with
  | free hfree => exact absurd htaken hfree
  | taken _ hnext => exact hnext

theorem Search.eq_of_free (h : Search names base n m) (hfree : numbered base n ∉ names) :
    m = n := by
  cases h with
  | free _ => rfl
  | taken htaken _ => exact absurd htaken hfree

/-- The search leaves out no number that is free. -/
theorem Search.le_of_free (h : Search names base n m) {k : Nat} (hle : n ≤ k)
    (hfree : numbered base k ∉ names) : m ≤ k := by
  induction h with
  | free _ => exact hle
  | taken htaken _ ih =>
    refine ih (Nat.lt_of_le_of_ne hle ?_)
    rintro rfl
    exact hfree htaken

/-- A search that starts past a number, and so past the base itself, finds the least number
    with a free name. -/
theorem Search.isLeast {l : Nat} (h : Search names base (l + 1) m) (hl : 1 ≤ l) :
    IsLeast {n | l < n ∧ base ++ "_" ++ n.repr ∉ names} m := by
  constructor
  · have hnot := h.not_mem
    rw [numbered_of_lt (Nat.lt_of_le_of_lt hl h.le)] at hnot
    exact ⟨h.le, hnot⟩
  · rintro k ⟨hlt, hfree⟩
    rw [← numbered_of_lt (Nat.lt_of_le_of_lt hl hlt)] at hfree
    exact h.le_of_free hlt hfree

/-! ### The numbers of a base -/

/-- The numbers that a base got, in the order of the requests, read off the requests and
    their answers. The base itself counts as number 1. Every number is larger than those
    before it. -/
structure Numbers (log : List (String × String)) (base : String) (ns : List Nat) : Prop where
  names : (log.filter (·.1 == base)).map (·.2) = ns.map (numbered base)
  pos : ∀ n ∈ ns, 1 ≤ n
  increasing : ns.Pairwise (· < ·)

/-- The requests for the given bases, with their answers. -/
def log (bases : List String) : List (String × String) := bases.zip (empty.takeAll bases)

theorem log_concat (bases : List String) (base : String) :
    log (bases ++ [base]) = log bases ++ [(base, ((empty.after bases).take base).1)] := by
  rw [log, takeAll_concat, List.zip_append (length_takeAll empty bases).symm]
  rfl

theorem map_fst_log (bases : List String) : (log bases).map (·.1) = bases :=
  List.map_fst_zip (Nat.le_of_eq (length_takeAll empty bases).symm)

theorem Numbers.eq_nil_iff {bases : List String} {ns : List Nat}
    (h : Numbers (log bases) base ns) : ns = [] ↔ base ∉ bases := by
  have hasked : base ∈ bases ↔ ∃ p ∈ log bases, p.1 = base := by
    rw [← List.mem_map, map_fst_log]
  rw [hasked, ← List.map_eq_nil_iff (f := numbered base), ← h.names, List.map_eq_nil_iff,
    List.filter_eq_nil_iff]
  simp only [beq_iff_eq, not_exists, not_and]

theorem Numbers.le_getLastD {log : List (String × String)} {ns : List Nat}
    (h : Numbers log base ns) : ∀ n ∈ ns, n ≤ ns.getLastD 0 := by
  intro n hn
  rcases List.eq_nil_or_concat' ns with rfl | ⟨init, last, rfl⟩
  · cases hn
  · have hlt := (List.pairwise_append.mp h.increasing).2.2
    rw [List.getLastD_concat]
    rcases List.mem_append.mp hn with hinit | hlast
    · exact Nat.le_of_lt (hlt n hinit last (List.mem_singleton_self last))
    · exact Nat.le_of_eq (List.mem_singleton.mp hlast)

/-- Each base has its numbers, and the supply remembers the last one. The induction is on
    the requests, from the first to the last. -/
theorem exists_numbers (bases : List String) (base : String) :
    ∃ ns, Numbers (log bases) base ns ∧ (empty.after bases).last base = ns.getLastD 0 := by
  induction bases using List.reverseRecOn with
  | nil => exact ⟨[], ⟨rfl, by simp, List.Pairwise.nil⟩, rfl⟩
  | append_singleton bases asked ih =>
    obtain ⟨ns, hns, hlast⟩ := ih
    rw [after_concat, last_take, log_concat]
    by_cases h : base = asked
    · subst h
      have hlt : ∀ n ∈ ns, n < (empty.after bases).next base := by
        intro n hn
        have hle := hns.le_getLastD n hn
        have hnext := (search_next (empty.after bases) base).le
        omega
      refine ⟨ns ++ [(empty.after bases).next base], ⟨?_, ?_, ?_⟩, ?_⟩
      · simp [hns.names, take]
      · rintro n hn
        rcases List.mem_append.mp hn with hold | hnew
        · exact hns.pos n hold
        · rw [List.mem_singleton.mp hnew]
          exact Nat.le_trans (Nat.le_add_left 1 _) (search_next _ base).le
      · refine List.pairwise_append.mpr ⟨hns.increasing, List.pairwise_singleton _ _, ?_⟩
        intro n hn m hm
        rw [List.mem_singleton.mp hm]
        exact hlt n hn
      · rw [if_pos rfl, List.getLastD_concat]
    · have hother : (asked == base) = false := beq_false_of_ne (Ne.symm h)
      refine ⟨ns, ⟨?_, hns.pos, hns.increasing⟩, ?_⟩
      · simp [hns.names, hother]
      · rw [if_neg h, hlast]

/-! ### The answer -/

/-- The answer to a request for a base, after requests for `before` that were answered with
    `names`. The search starts behind the last number of the base, at 1 for a new base. -/
structure Answer (before names : List String) (base name : String) (ns : List Nat) : Prop where
  numbers : Numbers (before.zip names) base ns
  search : ∃ n, Search names base (ns.getLastD 0 + 1) n ∧ name = numbered base n
  plain : base ∉ before → base ∉ names → name = base
  suffixed : base ∈ before ∨ base ∈ names →
    ∃ n, IsLeast {n | ns.getLastD 1 < n ∧ base ++ "_" ++ n.repr ∉ names} n ∧
      name = base ++ "_" ++ n.repr
  fresh : name ∉ names

theorem exists_answer (before : List String) (base : String) :
    ∃ ns, Answer before (empty.takeAll before) base ((empty.after before).take base).1 ns := by
  obtain ⟨ns, hns, hlast⟩ := exists_numbers before base
  have hsearch := (search_next (empty.after before) base).congr fun _ => mem_issued_after
  rw [hlast] at hsearch
  refine ⟨ns, hns, ⟨_, hsearch, rfl⟩, ?plain, ?suffixed, ?fresh⟩
  case plain =>
    intro hnew hfree
    rw [hns.eq_nil_iff.mpr hnew] at hsearch
    change numbered base ((empty.after before).next base) = base
    rw [hsearch.eq_of_free hfree]
    rfl
  case suffixed =>
    intro hknown
    have hpast : 1 ≤ ns.getLastD 1 ∧ Search (empty.takeAll before) base (ns.getLastD 1 + 1)
        ((empty.after before).next base) := by
      rcases List.eq_nil_or_concat' ns with rfl | ⟨init, last, rfl⟩
      · -- a new base whose name is taken: the search has passed by the base itself
        have htaken := hknown.resolve_left (hns.eq_nil_iff.mp rfl)
        exact ⟨Nat.le_refl 1, hsearch.next htaken⟩
      · rw [List.getLastD_concat] at hsearch ⊢
        exact ⟨hns.pos last (by simp), hsearch⟩
    have hleast := hpast.2.isLeast hpast.1
    exact ⟨_, hleast, numbered_of_lt (Nat.lt_of_le_of_lt hpast.1 hleast.1.1)⟩
  case fresh => exact hsearch.not_mem

/-- **A request gets the least free number.** Whatever has been asked for before, the search
    for a name on a base ends. A base that was neither asked for nor handed out is handed out
    as it is; any other base gets the least number past its last one whose name has not been
    handed out. So the numbers of a base increase, the name is new, and the names handed out
    before stay as they are, whatever is asked for later. -/
theorem take_least_free (before : List String) (base : String) :
    (∃ ns, Answer before (empty.takeAll before) base ((empty.after before).take base).1 ns) ∧
      (∀ later, empty.takeAll before ++ [((empty.after before).take base).1] <+:
        empty.takeAll (before ++ base :: later)) ∧
      ∀ (fallback : String) (xs ys : List (Option String)),
        fieldNames fallback xs <+: fieldNames fallback (xs ++ ys) := by
  refine ⟨exists_answer before base, ?_, ?_⟩
  · intro later
    rw [← takeAll_concat, List.append_cons before base later]
    exact takeAll_prefix _ _ _
  · intro fallback xs ys
    rw [fieldNames, fieldNames, baseNames_append]
    exact takeAll_prefix _ _ _

end Supply
end QueryClient.Naming
