/-
  QueryClient/Script/Layout.lean
  ==============================
  **Layout**: source text as a tree of lines, and the page that it is written on.

  A tree says which lines belong together and which are set one level deeper; only
  the page knows what one level looks like and how deep it stands. Every line ends
  with a line feed, and an empty line carries no indentation.
-/

namespace QueryClient.Script

inductive Margin where
  | spaces (width : Nat)
  | tab
deriving DecidableEq, Repr

def Margin.text : Margin → String
  | .spaces width => String.ofList (List.replicate width ' ')
  | .tab => "\t"

/-- The indentation of generated files. -/
def Margin.standard : Margin := .spaces 2

/-- A piece of source text: one line, an empty line, or a header with the pieces set
    one level below it and the line that closes them, if there is one. -/
inductive Layout where
  | line (text : String)
  | blank
  | block (header : String) (body : List Layout) (close : Option String)
deriving Repr, Inhabited

/-- A text being written: how deep the next line stands, and what is written so
    far. -/
structure Page where
  margin : Margin
  level : Nat
  text : String
deriving DecidableEq, Repr

namespace Page

/-- A page with nothing on it. -/
def empty (margin : Margin) : Page := ⟨margin, 0, ""⟩

/-- The margin repeated for every level. -/
def indentation (margin : Margin) : (level : Nat) → String
  | 0 => ""
  | level + 1 => margin.text ++ indentation margin level

/-- Write one line at the current level; an empty one stays empty. -/
def line (p : Page) (s : String) : Page :=
  if s = "" then { p with text := p.text ++ "\n" }
  else { p with text := p.text ++ indentation p.margin p.level ++ s ++ "\n" }

def blank (p : Page) : Page := { p with text := p.text ++ "\n" }

def indent (p : Page) : Page := { p with level := p.level + 1 }

/-- Go one level back; the outermost level stays. -/
def dedent (p : Page) : Page := { p with level := p.level - 1 }

/-- Write the line that closes a block. -/
def close (p : Page) : Option String → Page
  | none => p
  | some s => p.line s

mutual

/-- Write a layout at the current level. -/
def put (p : Page) : Layout → Page
  | .line s => p.line s
  | .blank => p.blank
  | .block header body close => (((p.line header).indent.putAll body).dedent).close close

/-- Write layouts one after the other. -/
def putAll (p : Page) : List Layout → Page
  | [] => p
  | l :: ls => (p.put l).putAll ls

end

end Page

/-- Layouts as text, from the outermost level on. -/
def Layout.render (ls : List Layout) : String := ((Page.empty .standard).putAll ls).text

end QueryClient.Script
