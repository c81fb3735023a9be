/-
  QueryClient/Proofs/Traversal.lean
  =================================
  **Going through a list with a step that may fail.** The list is gone through from the
  front and up to the first item that the step refuses. So a traversal succeeds where
  every item does, with the results in order (`mapM_eq_ok_iff`), and otherwise fails as its
  first faulty item does (`mapM_eq_error_iff`).
-/
import Mathlib.Data.List.Forall2

namespace QueryClient

variable {ε α β γ : Type}

/-! ### Single computations -/

theorem map_eq_ok_iff {f : α → β} {x : Except ε α} {y : β} :
    x.map f = .ok y ↔ ∃ a, x = .ok a ∧ y = f a := by
  cases x with
  | error e => simp [Except.map]
  | ok a => simp [Except.map, eq_comm]

theorem map_eq_error_iff {f : α → β} {x : Except ε α} {e : ε} :
    x.map f = .error e ↔ x = .error e := by
  cases x <;> simp [Except.map]

theorem map_map_except (f : α → β) (g : β → γ) (x : Except ε α) :
    (x.map f).map g = x.map fun a => g (f a) := by
  cases x <;> rfl

/-- Why a computation failed, if it did. -/
def fault? : Except ε α → Option ε
  | .error e => some e
  | .ok _ => none

theorem fault?_map (f : α → β) (x : Except ε α) : fault? (x.map f) = fault? x := by
  cases x <;> rfl

theorem fault?_eq_some_iff {x : Except ε α} {e : ε} : fault? x = some e ↔ x = .error e := by
  cases x <;> simp [fault?]

theorem fault?_eq_none_iff {x : Except ε α} : fault? x = none ↔ ∃ a, x = .ok a := by
  cases x <;> simp [fault?]

/-! ### Success -/

/-- Going through a list succeeds where every item does, with the results in order. -/
theorem mapM_eq_ok_iff {f : α → Except ε β} {xs : List α} {ys : List β} :
    xs.mapM f = .ok ys ↔ List.Forall₂ (fun x y => f x = .ok y) xs ys := by
  induction xs generalizing ys with
  | nil =>
    rw [List.mapM_nil]
    constructor
    · intro h
      cases h
      exact List.Forall₂.nil
    · intro h
      cases h
      rfl
  | cons x xs ih =>
    rw [List.mapM_cons]
    constructor
    · intro h
      cases hx : f x with
      | error e => rw [hx] at h; cases h
      | ok y =>
        cases hxs : xs.mapM f with
        | error e => rw [hx, hxs] at h; cases h
        | ok rest =>
          rw [hx, hxs] at h
          cases h
          exact List.Forall₂.cons hx (ih.mp hxs)
    · intro h
      cases h with
      | cons hx hrest =>
        rw [hx, ih.mpr hrest]
        rfl

theorem exists_mapM_iff {f : α → Except ε β} {xs : List α} :
    (∃ ys, xs.mapM f = .ok ys) ↔ ∀ x ∈ xs, ∃ y, f x = .ok y := by
  simp only [mapM_eq_ok_iff]
  induction xs with
  | nil => simp
  | cons x xs ih =>
    simp only [List.forall_mem_cons, ← ih, List.forall₂_cons_left_iff]
    constructor
    · rintro ⟨_, y, ys, hy, hys, rfl⟩
      exact ⟨⟨y, hy⟩, ys, hys⟩
    · rintro ⟨⟨y, hy⟩, ys, hys⟩
      exact ⟨_, y, ys, hy, hys, rfl⟩

theorem exists_of_mem_mapM {f : α → Except ε β} {xs : List α} {ys : List β} {y : β}
    (h : xs.mapM f = .ok ys) (hy : y ∈ ys) : ∃ x ∈ xs, f x = .ok y := by
  induction mapM_eq_ok_iff.mp h with
  | nil => cases hy
  | @cons x y' xs ys hx hrest ih =>
    rcases List.mem_cons.mp hy with rfl | hmem
    · exact ⟨x, List.mem_cons_self, hx⟩
    · obtain ⟨x', hx', hok⟩ := ih (mapM_eq_ok_iff.mpr hrest) hmem
      exact ⟨x', List.mem_cons_of_mem _ hx', hok⟩

/-- What is done with each result can be done with all of them at the end. -/
theorem mapM_map_except (f : α → Except ε β) (g : β → γ) (xs : List α) :
    (xs.mapM fun x => (f x).map g) = (xs.mapM f).map (List.map g) := by
  induction xs with
  | nil => rfl
  | cons x xs ih =>
    rw [List.mapM_cons, List.mapM_cons, ih]
    cases f x with
    | error e => rfl
    | ok y =>
      cases xs.mapM f with
      | error e => rfl
      | ok ys => rfl

/-! ### Failure -/

/-- Going through a list fails where its first faulty item does. -/
theorem fault?_mapM (f : α → Except ε β) (xs : List α) :
    fault? (xs.mapM f) = xs.findSome? fun x => fault? (f x) := by
  induction xs with
  | nil => rfl
  | cons x xs ih =>
    rw [List.mapM_cons, List.findSome?_cons]
    cases f x with
    | error e => rfl
    | ok y =>
      rw [← ih]
      exact fault?_map (y :: ·) (xs.mapM f)

theorem mapM_eq_error_iff {f : α → Except ε β} {xs : List α} {e : ε} :
    xs.mapM f = .error e ↔ ∃ before x after, xs = before ++ x :: after ∧
      (∀ y ∈ before, ∃ b, f y = .ok b) ∧ f x = .error e := by
  rw [← fault?_eq_some_iff, fault?_mapM, List.findSome?_eq_some_iff]
  simp only [fault?_eq_some_iff, fault?_eq_none_iff]
  constructor
  · rintro ⟨before, x, after, hxs, hx, hbefore⟩
    exact ⟨before, x, after, hxs, hbefore, hx⟩
  · rintro ⟨before, x, after, hxs, hbefore, hx⟩
    exact ⟨before, x, after, hxs, hx, hbefore⟩

/-- If it is known which items are faulty, the first of them need only be looked for. -/
theorem findSome?_ite (p : α → Prop) [DecidablePred p] (e : α → ε) (xs : List α) :
    (xs.findSome? fun x => if p x then some (e x) else none) =
      (xs.find? fun x => p x).map e := by
  induction xs with
  | nil => rfl
  | cons x xs ih =>
    rw [List.findSome?_cons, ih, List.find?_cons]
    by_cases h : p x
    · rw [if_pos h, decide_eq_true h]
      rfl
    · rw [if_neg h, decide_eq_false h]

/-! ### Steps on a state -/

theorem foldlM_concat_eq_ok_iff {f : β → α → Except ε β} {b b' : β} {xs : List α} {x : α} :
    (xs ++ [x]).foldlM f b = .ok b' ↔ ∃ c, xs.foldlM f b = .ok c ∧ f c x = .ok b' := by
  have hlast (c : β) : [x].foldlM f c = f c x := bind_pure _
  rw [List.foldlM_append]
  cases xs.foldlM f b with
  | error e =>
    constructor
    · intro h
      cases h
    · rintro ⟨c, hc, -⟩
      cases hc
  | ok c =>
    change [x].foldlM f c = .ok b' ↔ _
    simp [hlast]

/-- Steps taken on a state fail where one of them does, with those in front of it taken. -/
theorem foldlM_eq_error_iff {f : β → α → Except ε β} {b : β} {xs : List α} {e : ε} :
    xs.foldlM f b = .error e ↔ ∃ before x after c, xs = before ++ x :: after ∧
      before.foldlM f b = .ok c ∧ f c x = .error e := by
  constructor
  · intro h
    induction xs generalizing b with
    | nil => cases h
    | cons x xs ih =>
      rw [List.foldlM_cons] at h
      cases hx : f b x with
      | error e' =>
        rw [hx] at h
        cases h
        exact ⟨[], x, xs, b, rfl, rfl, hx⟩
      | ok b' =>
        rw [hx] at h
        obtain ⟨before, y, after, c, rfl, hbefore, hy⟩ := ih h
        refine ⟨x :: before, y, after, c, rfl, ?_, hy⟩
        rw [List.foldlM_cons, hx]
        exact hbefore
  · rintro ⟨before, x, after, c, rfl, hbefore, hx⟩
    rw [List.foldlM_append, hbefore]
    change (x :: after).foldlM f c = .error e
    rw [List.foldlM_cons, hx]
    rfl

end QueryClient
