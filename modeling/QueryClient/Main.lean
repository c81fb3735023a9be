/-
  QueryClient/Main.lean
  =====================
  **The program.** It reads the request, writes what the command line decides, and
  says on standard error what went wrong.
-/
import QueryClient.CommandLine

namespace QueryClient.CommandLine

/-- Everything that is still to come from a stream, after what has come already. -/
partial def readRest (stream : IO.FS.Stream) (before : ByteArray) : IO ByteArray := do
  let chunk ← stream.read 65536
  if chunk.isEmpty then pure before else readRest stream (before ++ chunk)

/-- Print bytes. -/
def printBytes (bytes : Bytes) : IO Unit := do
  let stdout ← IO.getStdout
  stdout.write ⟨bytes.toArray⟩
  stdout.flush

/-- Say what went wrong, and give the exit code for it. -/
def complain (message : String) (causes : List String) : IO UInt32 := do
  IO.eprintln ("Error: " ++ message)
  for cause in causes do
    IO.eprintln ("  caused by: " ++ cause)
  pure (UInt32.ofNat faultCode)

/-- Read the request. -/
def Options.readRequest (o : Options) : IO (Except FileFault Bytes) :=
  match o.input? with
  | some path => do
    try
      let bytes ← IO.FS.readBinFile path
      pure (.ok bytes.toList)
    catch _ => pure (.error (.unreadable path))
  | .none => do
    let bytes ← readRest (← IO.getStdin) .empty
    pure (.ok bytes.toList)

/-- Hand over a delivery, and give the exit code. -/
def Delivery.perform : Delivery → IO UInt32
  | .print bytes => do
    printBytes bytes
    pure 0
  | .save path bytes => do
    try
      IO.FS.writeBinFile path ⟨bytes.toArray⟩
      pure 0
    catch _ => complain (FileFault.message (.unwritable path)) []

/-- Do what the options ask for, and give the exit code. -/
def Options.perform (o : Options) : IO UInt32 := do
  match ← o.readRequest with
  | .error f => complain f.message []
  | .ok request =>
    match o.deliver request with
    | .error f => complain f.message f.causes
    | .ok delivery => delivery.perform

end QueryClient.CommandLine

open QueryClient.CommandLine in
/-- Run on the given arguments. -/
def main (arguments : List String) : IO UInt32 := do
  match parse arguments with
  | .ok o => o.perform
  | .error stop =>
    let outcome := stop.outcome .empty
    printBytes outcome.stdout
    if outcome.exitCode != 0 then IO.eprintln helpText
    pure (UInt32.ofNat outcome.exitCode)
