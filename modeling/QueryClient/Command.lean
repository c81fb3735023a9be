/-
  QueryClient/Command.lean
  ========================
  **The command of a query**: what its caller gets back. It is written as a tag in
  the query's annotation, `-- name: GetAuthor :one`.
-/

namespace QueryClient

/-- What a query's caller gets back: nothing, the id of the row just inserted, at
    most one row, or all rows. -/
inductive Command where
  | exec
  | execLastId
  | one
  | many
deriving DecidableEq, Repr

/-- A tag that names no command. -/
structure UnknownCommand where
  tag : String
deriving DecidableEq, Repr

def UnknownCommand.message (u : UnknownCommand) : String := "unknown command '" ++ u.tag ++ "'"

namespace Command

def tag : Command → String
  | .exec => ":exec"
  | .execLastId => ":execlastid"
  | .one => ":one"
  | .many => ":many"

def all : List Command := [.exec, .execLastId, .one, .many]

/-- The command with the given tag. -/
def ofTag (tag : String) : Except UnknownCommand Command :=
  match all.find? (·.tag == tag) with
  | some c => .ok c
  | none => .error ⟨tag⟩

end Command
end QueryClient
