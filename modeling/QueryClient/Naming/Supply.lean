/-
  QueryClient/Naming/Supply.lean
  ==============================
  **A supply of distinct names.** The fields of one interface must differ, but the
  columns that they stand for may share a name. The first request for a base name
  gets the base itself, a later one the base with a number: `id`, `id_2`, `id_3`.
  A number is skipped where the numbered name has been handed out before, because
  some column was declared under that very name.

  Each interface has a supply of its own.
-/
import QueryClient.Naming.Basic

namespace QueryClient.Naming

/-- What a supply remembers: the number last given to each base, and every name
    handed out. -/
structure Supply where
  numbers : List (String × Nat)
  issued : List String
deriving DecidableEq, Repr

namespace Supply

/-- A supply that has handed out nothing. -/
def empty : Supply := ⟨[], []⟩

/-- The `n`-th name on a base: the base itself, then the base with a number. -/
def numbered (base : String) (n : Nat) : String :=
  if n ≤ 1 then base else base ++ "_" ++ n.repr

/-- The number last given to a base, and 0 for a new base. -/
def last (s : Supply) (base : String) : Nat := (s.numbers.lookup base).getD 0

/-- The first number from `n` on whose name is not among the issued ones, looking at
    no more than `steps` numbers beyond `n`. -/
def firstFree (issued : List String) (base : String) : (steps : Nat) → (n : Nat) → Nat
  | 0, n => n
  | steps + 1, n =>
    if issued.contains (numbered base n) then firstFree issued base steps (n + 1) else n

/-- The number that the next request for a base gets. Names with different numbers
    differ, so as many steps as there are issued names lead to a free one. -/
def next (s : Supply) (base : String) : Nat :=
  firstFree s.issued base s.issued.length (s.last base + 1)

/-- Hand out a name on a base. -/
def take (s : Supply) (base : String) : String × Supply :=
  let n := s.next base
  let name := numbered base n
  (name, ⟨(base, n) :: s.numbers, name :: s.issued⟩)

/-- Hand out a name on each base, in order. -/
def takeAll : Supply → List String → List String
  | _, [] => []
  | s, b :: bs => (s.take b).1 :: takeAll (s.take b).2 bs

end Supply

/-- The base names of declared columns: the field name, or for a nameless column the
    fallback with its position, counted from `i`. -/
def baseNames (fallback : String) : (i : Nat) → List (Option String) → List String
  | _, [] => []
  | i, some name :: rest => fieldName name :: baseNames fallback (i + 1) rest
  | i, none :: rest => (fallback ++ i.repr) :: baseNames fallback (i + 1) rest

/-- Distinct field names for declared columns. -/
def fieldNames (fallback : String) (declared : List (Option String)) : List String :=
  Supply.empty.takeAll (baseNames fallback 0 declared)

end QueryClient.Naming
