/-
  QueryClient/Proofs/Naming/Occurrences.lean
  ==========================================
  **The n-th request for a base gets the number n**, as long as no base looks like a
  numbered name of another one. The last underscore of a numbered name separates its base
  from its number, so numbered names of different bases differ (`numbered_inj`). Then the
  names handed out are no obstacle to a base but its own, and the number last given to it is
  how often it has been asked for (`counts_after`).
-/
import QueryClient.Proofs.Naming.Requests

namespace QueryClient.Naming

namespace Supply

/-! ### Bases that lead to different names -/

/-- No base is another one, or itself, with an underscore and a number from 2 on behind it. -/
def Unnumbered (bases : List String) : Prop :=
  ∀ b ∈ bases, ∀ c ∈ bases, ∀ n, 2 ≤ n → c ≠ b ++ "_" ++ n.repr

theorem underscore_notMem_toDigits (n : Nat) : '_' ∉ Nat.toDigits 10 n := by
  intro h
  exact absurd (Nat.isDigit_of_mem_toDigits (by decide) (by decide) h) (by decide)

/-- What stands before the last underscore is determined by the text. -/
theorem eq_of_append_underscore_eq {xs ys ds es : List Char} (hds : '_' ∉ ds) (hes : '_' ∉ es)
    (h : xs ++ '_' :: ds = ys ++ '_' :: es) : xs = ys := by
  rcases List.append_eq_append_iff.mp h with ⟨between, rfl, hbehind⟩ | ⟨between, rfl, hbehind⟩
  · cases between with
    | nil => exact (List.append_nil xs).symm
    | cons c between =>
      have heq : ds = between ++ '_' :: es := (List.cons.inj hbehind).2
      exact absurd (by simp [heq]) hds
  · cases between with
    | nil => exact List.append_nil ys
    | cons c between =>
      have heq : es = between ++ '_' :: ds := (List.cons.inj hbehind).2
      exact absurd (by simp [heq]) hes

/-- Bases and numbers can be told from the names. -/
theorem numbered_inj {bases : List String} (h : Unnumbered bases) {b c : String} (hb : b ∈ bases)
    (hc : c ∈ bases) {m n : Nat} (hm : 1 ≤ m) (hn : 1 ≤ n)
    (heq : numbered b m = numbered c n) : b = c ∧ m = n := by
  have hbase : b = c := by
    rcases Nat.eq_or_lt_of_le hm with rfl | hm
    · rcases Nat.eq_or_lt_of_le hn with rfl | hn
      · exact heq
      · exact absurd (heq.trans (numbered_of_lt hn)) (h c hc b hb n hn)
    · rcases Nat.eq_or_lt_of_le hn with rfl | hn
      · exact absurd (heq.symm.trans (numbered_of_lt hm)) (h b hb c hc m hm)
      · have hlist := congrArg String.toList heq
        rw [toList_numbered hm, toList_numbered hn] at hlist
        exact String.toList_inj.mp (eq_of_append_underscore_eq (underscore_notMem_toDigits m)
          (underscore_notMem_toDigits n) hlist)
  subst hbase
  exact ⟨rfl, numbered_injective hm hn heq⟩

/-- A numbered name ends in a digit, so bases that do not are no numbered names. -/
theorem unnumbered_of_getLast? {bases : List String}
    (h : ∀ b ∈ bases, b.toList.getLast?.any Char.isDigit = false) : Unnumbered bases := by
  rintro b - c hc n hn rfl
  have hdigits : Nat.toDigits 10 n ≠ [] := Nat.toDigits_ne_nil
  have hother := h _ hc
  rw [← numbered_of_lt hn, toList_numbered hn, List.getLast?_append_of_ne_nil _
    (List.cons_ne_nil _ _), List.getLast?_cons_of_ne_nil hdigits,
    List.getLast?_eq_some_getLast hdigits, Option.any_some] at hother
  have hlast := Nat.isDigit_of_mem_toDigits (by decide) (by decide) (List.getLast_mem hdigits)
  rw [hother] at hlast
  cases hlast

/-! ### Numbers count requests -/

/-- The supply has given each base the numbers from 1 to how often it was asked for, and has
    handed out nothing else. -/
structure Counts (s : Supply) (asked : List String) : Prop where
  last : ∀ b, s.last b = asked.count b
  issued : ∀ name ∈ s.issued, ∃ b ∈ asked, ∃ n, 1 ≤ n ∧ n ≤ asked.count b ∧ name = numbered b n

variable {asked : List String} {base : String}

/-- The next number of a base is one more than it has been asked for: the name could only be
    taken by the same base under the same number. -/
theorem Counts.next_eq {s : Supply} (hs : Counts s asked) (h : Unnumbered (asked ++ [base])) :
    s.next base = asked.count base + 1 := by
  have hfree : numbered base (asked.count base + 1) ∉ s.issued := by
    intro hmem
    obtain ⟨b, hb, n, hpos, hle, heq⟩ := hs.issued _ hmem
    obtain ⟨rfl, rfl⟩ := numbered_inj h (List.mem_append_right _ (List.mem_singleton_self base))
      (List.mem_append_left _ hb) (Nat.le_add_left 1 _) hpos heq
    exact Nat.not_succ_le_self _ hle
  have hsearch := search_next s base
  rw [hs.last] at hsearch
  exact hsearch.eq_of_free hfree

theorem Counts.take {s : Supply} (hs : Counts s asked) (h : Unnumbered (asked ++ [base])) :
    Counts (s.take base).2 (asked ++ [base]) := by
  have hnext := hs.next_eq h
  constructor
  · intro b
    rw [last_take, List.count_append, List.count_singleton]
    by_cases hb : b = base
    · rw [if_pos hb, hnext, hb, if_pos (beq_self_eq_true base)]
    · rw [if_neg hb, hs.last, if_neg (fun heq => hb (beq_iff_eq.mp heq).symm), Nat.add_zero]
  · intro name hname
    rw [take_issued] at hname
    rcases List.mem_cons.mp hname with rfl | hold
    · refine ⟨base, by simp, s.next base, ?_, ?_, rfl⟩
      · exact Nat.le_trans (Nat.le_add_left 1 _) (search_next s base).le
      · rw [List.count_append, List.count_singleton_self]
        exact Nat.le_of_eq hnext
    · obtain ⟨b, hb, n, hpos, hle, heq⟩ := hs.issued name hold
      refine ⟨b, List.mem_append_left _ hb, n, hpos, ?_, heq⟩
      rw [List.count_append]
      exact Nat.le_add_right_of_le hle

theorem Unnumbered.of_subset {bases others : List String} (h : Unnumbered bases)
    (hsubset : others ⊆ bases) : Unnumbered others :=
  fun b hb c hc => h b (hsubset hb) c (hsubset hc)

/-- After any requests the numbers count the requests. The induction is on the requests, from
    the first to the last. -/
theorem counts_after (h : Unnumbered asked) : Counts (empty.after asked) asked := by
  induction asked using List.reverseRecOn with
  | nil => exact ⟨fun _ => rfl, fun _ hname => absurd hname List.not_mem_nil⟩
  | append_singleton asked base ih =>
    rw [after_concat]
    exact (ih (h.of_subset (List.subset_append_left _ _))).take h

/-- **Occurrences are counted.** Names are handed out on bases none of which looks like a
    numbered name of a base among them. Then each base gets itself the first time, and at its
    n-th occurrence the number n, whatever stands between the occurrences. -/
theorem takeAll_counts_occurrences {bases : List String} (h : Unnumbered bases) :
    (empty.takeAll bases).length = bases.length ∧
      ∀ before base later, bases = before ++ base :: later →
        (before.count base = 0 → (empty.takeAll bases)[before.length]? = some base) ∧
        ∀ n, 2 ≤ n → before.count base + 1 = n →
          (empty.takeAll bases)[before.length]? = some (base ++ "_" ++ n.repr) := by
  refine ⟨length_takeAll empty bases, ?_⟩
  rintro before base later rfl
  have hbefore : Unnumbered (before ++ [base]) := h.of_subset (by simp)
  have hnext := (counts_after (hbefore.of_subset (List.subset_append_left _ _))).next_eq hbefore
  have hanswer : (empty.takeAll (before ++ base :: later))[before.length]? =
      some (numbered base (before.count base + 1)) := by
    rw [takeAll_append, takeAll, List.getElem?_append_right (Nat.le_of_eq (length_takeAll _ _)),
      length_takeAll, Nat.sub_self, ← hnext]
    rfl
  rw [hanswer]
  constructor
  · intro hfirst
    rw [hfirst]
    rfl
  · rintro n hn rfl
    rw [numbered_of_lt hn]

/-- Two bases that take turns, one of them with an underscore of its own. -/
theorem takeAll_counts_occurrences_alternating :
    Unnumbered ["id", "user_id", "id", "user_id", "name", "id"] ∧
      (empty.takeAll ["id", "user_id", "id", "user_id", "name", "id"])[5]? = some "id_3" := by
  have h : Unnumbered ["id", "user_id", "id", "user_id", "name", "id"] :=
    unnumbered_of_getLast? (by decide)
  have hanswers := (takeAll_counts_occurrences h).2
  exact ⟨h, (hanswers ["id", "user_id", "id", "user_id", "name"] "id" [] rfl).2 3 (by decide) rfl⟩

end Supply
end QueryClient.Naming
