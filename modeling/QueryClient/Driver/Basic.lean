/-
  QueryClient/Driver/Basic.lean
  =============================
  **Drivers**: the client libraries that generated code can talk to, each with the
  options that change what it hands back.
-/

namespace QueryClient

/-- How a MySQL connection hands back large integers: whether it supports them, and
    whether they then always come as texts. -/
structure BigNumbers where
  supported : Bool
  asStrings : Bool
deriving DecidableEq, Repr

inductive Driver where
  | pg
  | postgres
  | mysql2 (bigNumbers : BigNumbers)
  | betterSqlite3 (safeIntegers : Bool)
  | turso
deriving DecidableEq, Repr

namespace Driver

/-- The name that settings select the driver by. -/
def name : Driver → String
  | .pg => "pg"
  | .postgres => "postgres"
  | .mysql2 _ => "mysql2"
  | .betterSqlite3 _ => "better-sqlite3"
  | .turso => "turso"

/-- Every driver, under the options for it. -/
def all (bigNumbers : BigNumbers) (safeIntegers : Bool) : List Driver :=
  [.pg, .postgres, .mysql2 bigNumbers, .betterSqlite3 safeIntegers, .turso]

/-- Does the library run inside the program, on an SQLite file? -/
def isEmbedded : Driver → Bool
  | .betterSqlite3 _ => true
  | .turso => true
  | _ => false

end Driver
end QueryClient
