/-
  QueryClient/CommandLine.lean
  ============================
  **The command line**: its arguments, and what a run does to standard output and to
  the files that it can reach.

  The arguments are taken one after the other, and the first that settles the matter
  does so: a request for help or for the version, or an argument that is wrong. A run
  that fails prints nothing and leaves the files as they were.
-/
import QueryClient.Directory
import QueryClient.Preview
import QueryClient.RequestFormat

namespace QueryClient.CommandLine

/-! ### Options -/

/-- An option that takes a path. -/
inductive PathOption where
  | input
  | output
deriving DecidableEq, Repr

/-- What the arguments ask for. -/
structure Options where
  input? : Option String
  output? : Option String
  json : Bool
  dryRun : Bool
deriving DecidableEq, Repr

/-- Why no request is read: the arguments are wrong, or they ask for a text about the
    program. -/
inductive Stop where
  | usage
  | help
  | version
deriving DecidableEq, Repr

namespace Options

def none : Options := ⟨.none, .none, false, false⟩

/-- Give a path to an option. A path is not empty, and given once. -/
def setPath (o : Options) (option : PathOption) (path : String) : Except Stop Options :=
  if path = "" then .error .usage
  else
    match option with
    | .input => if o.input?.isSome then .error .usage else .ok { o with input? := some path }
    | .output => if o.output?.isSome then .error .usage else .ok { o with output? := some path }

/-- Ask for a request in JSON, once. -/
def setJson (o : Options) : Except Stop Options :=
  if o.json then .error .usage else .ok { o with json := true }

/-- Ask for a preview, once. -/
def setDryRun (o : Options) : Except Stop Options :=
  if o.dryRun then .error .usage else .ok { o with dryRun := true }

end Options

/-! ### Arguments -/

/-- An argument by its form: two dashes alone, a long option and what is joined to it
    by an equals sign, short options, or anything else, one dash alone being no
    option. -/
inductive Argument where
  | dashes
  | long (name : String) (value? : Option String)
  | short (letters : List Char)
  | plain (text : String)
deriving DecidableEq, Repr

/-- A name, and the value behind the first equals sign. -/
def splitValue (cs : List Char) : String × Option String :=
  (String.ofList (cs.takeWhile (· != '=')),
    match cs.dropWhile (· != '=') with
    | [] => none
    | _ :: value => some (String.ofList value))

def Argument.ofString (s : String) : Argument :=
  match s.toList with
  | ['-', '-'] => .dashes
  | '-' :: '-' :: cs => .long (splitValue cs).1 (splitValue cs).2
  | '-' :: c :: cs => .short (c :: cs)
  | _ => .plain s

/-- The arguments read so far: what they ask for, an option that still waits for its
    path, and whether two dashes have ended the options. -/
structure Reading where
  options : Options
  waiting? : Option PathOption
  ended : Bool
deriving DecidableEq, Repr

namespace Reading

/-- Before the first argument. -/
def start : Reading := ⟨.none, none, false⟩

/-- Go on with other options. -/
def withOptions (r : Reading) (o : Options) : Reading := { r with options := o }

/-- Take an option that takes a path, with its path or before it. -/
def takePath (r : Reading) (option : PathOption) : Option String → Except Stop Reading
  | some path => (r.options.setPath option path).map r.withOptions
  | none => .ok { r with waiting? := some option }

def takeLong (r : Reading) (name : String) (value? : Option String) : Except Stop Reading :=
  match name, value? with
  | "input", path? => r.takePath .input path?
  | "output", path? => r.takePath .output path?
  | "json", none => r.options.setJson.map r.withOptions
  | "dry-run", none => r.options.setDryRun.map r.withOptions
  | "help", none => .error .help
  | "version", none => .error .version
  | _, _ => .error .usage

/-- The path written behind a letter, with or without an equals sign; none if nothing
    is. -/
def attachedPath? : List Char → Option String
  | [] => none
  | '=' :: cs => some (String.ofList cs)
  | cs => some (String.ofList cs)

/-- Take short options; those known either take all that follows as their path, or
    end the reading. -/
def takeShort (r : Reading) : List Char → Except Stop Reading
  | 'i' :: cs => r.takePath .input (attachedPath? cs)
  | 'o' :: cs => r.takePath .output (attachedPath? cs)
  | 'h' :: _ => .error .help
  | 'V' :: _ => .error .version
  | _ => .error .usage

/-- Take one more argument. An option that waits for its path takes no option for
    one, and there is nothing but options. -/
def take (r : Reading) (argument : String) : Except Stop Reading :=
  if r.ended then .error .usage
  else
    match Argument.ofString argument, r.waiting? with
    | .plain path, some option =>
      (r.options.setPath option path).map fun o => ⟨o, none, false⟩
    | _, some _ => .error .usage
    | .plain _, none => .error .usage
    | .dashes, none => .ok { r with ended := true }
    | .long name value?, none => r.takeLong name value?
    | .short letters, none => r.takeShort letters

end Reading

/-- What the arguments ask for. -/
def parse (arguments : List String) : Except Stop Options :=
  match arguments.foldlM Reading.take .start with
  | .error s => .error s
  | .ok r => if r.waiting?.isSome then .error .usage else .ok r.options

/-! ### Texts about the program -/

/-- What `--version` prints. -/
def versionText : String := "sqlts 0.5.0\n"

/-- What `--help` prints. -/
def helpText : String :=
  "Generate TypeScript query clients from sqlc requests\n" ++
  "\n" ++
  "Usage: sqlts [OPTIONS]\n" ++
  "\n" ++
  "Options:\n" ++
  "  -i, --input <INPUT>    Read the request from a file instead of stdin\n" ++
  "  -o, --output <OUTPUT>  Write the response to a file instead of stdout\n" ++
  "      --json             The request is JSON instead of protobuf\n" ++
  "      --dry-run          Print the generated files instead of writing a response\n" ++
  "  -h, --help             Print help\n" ++
  "  -V, --version          Print version\n"

/-! ### Runs -/

/-- What a run leaves: its exit code, what it printed, and the files. -/
structure Outcome where
  exitCode : Nat
  stdout : Bytes
  directory : Directory
deriving DecidableEq, Repr

/-- What a run hands over: bytes to print, or to write to a file. -/
inductive Delivery where
  | print (bytes : Bytes)
  | save (path : String) (bytes : Bytes)
deriving DecidableEq, Repr

/-- A preview as it is printed. -/
def previewBytes (r : Response) : Bytes :=
  r.preview.flatMap fun item => Text.utf8 item.text

namespace Options

/-- The form that the request is in. -/
def format (o : Options) : RequestFormat := if o.json then .json else .message

def delivery (o : Options) (r : Response) : Delivery :=
  if o.dryRun then .print (previewBytes r)
  else
    match o.output? with
    | .none => .print (Wire.encodeResponse r)
    | some path => .save path (Wire.encodeResponse r)

def deliver (o : Options) (request : Bytes) : Except RunFault Delivery :=
  (o.format.respond request).map o.delivery

def request (o : Options) (stdin : Bytes) (d : Directory) (working : Location) :
    Except FileFault Bytes :=
  match o.input? with
  | .none => .ok stdin
  | some path => d.read path working

end Options

/-- The exit code after a fault. -/
def faultCode : Nat := 1

/-- The exit code after wrong arguments. -/
def usageCode : Nat := 2

def Stop.outcome (d : Directory) : Stop → Outcome
  | .usage => ⟨usageCode, [], d⟩
  | .help => ⟨0, Text.utf8 helpText, d⟩
  | .version => ⟨0, Text.utf8 versionText, d⟩

def Delivery.outcome (d : Directory) (working : Location) : Delivery → Outcome
  | .print bytes => ⟨0, bytes, d⟩
  | .save path bytes =>
    match d.write path bytes working with
    | .error _ => ⟨faultCode, [], d⟩
    | .ok d => ⟨0, [], d⟩

def Options.outcome (o : Options) (stdin : Bytes) (d : Directory) (working : Location) : Outcome :=
  match o.request stdin d working with
  | .error _ => ⟨faultCode, [], d⟩
  | .ok request =>
    match o.deliver request with
    | .error _ => ⟨faultCode, [], d⟩
    | .ok delivery => delivery.outcome d working

/-- Run on the given arguments, in a folder of the tree. -/
def run (arguments : List String) (stdin : Bytes) (d : Directory) (working : Location := []) :
    Outcome :=
  match parse arguments with
  | .error stop => stop.outcome d
  | .ok o => o.outcome stdin d working

end QueryClient.CommandLine
