/-
Module: QasmDiagram.Main
Purpose: The command line program on real files.
Trusted boundary: reading and writing of files and of the standard streams
Main exports: main
-/
import QasmDiagram.Command

namespace QasmDiagram

/-- The fault behind a failed file operation. -/
def FileFault.ofError : IO.Error → FileFault
  | .noFileOrDirectory _ _ _ => .missing
  | .inappropriateType _ 20 _ => .notFolder
  | .inappropriateType _ 21 _ => .isFolder
  | .invalidArgument _ 36 _ => .nameTooLong
  | e => .other e.toString

/-- Reads a stream to its end, behind what has been read already. -/
partial def readToEnd (stream : IO.FS.Stream) (done : ByteArray) : IO ByteArray := do
  let chunk ← stream.read 65536
  if chunk.isEmpty then return done else readToEnd stream (done ++ chunk)

/-- Real files and the real standard input. -/
def realHost : Host IO where
  input := do readToEnd (← IO.getStdin) ByteArray.empty
  readFile path := do
    try
      return .ok (← IO.FS.readBinFile path)
    catch e => return .error (.ofError e)
  writeFile path text := do
    try
      IO.FS.writeFile path text
      return .ok ()
    catch e => return .error (.ofError e)

end QasmDiagram

/-- Runs the program on the arguments of the command line. -/
def main (arguments : List String) : IO UInt32 := do
  let environment ← IO.getEnv "QASMVIZ_CONFIG"
  let report ← QasmDiagram.Command.run QasmDiagram.realHost environment arguments
  IO.print report.output
  IO.eprint report.errors
  return UInt32.ofNat report.exitCode
