import Formula.Command.Run
/-!
# The program

Writes out the answer to the arguments: the files, the output, the log on the error stream, and the exit status.
-/

namespace Formula.Command

def usage : String :=
  "usage: formula [--log_level LEVEL] check DEFINITION\n" ++
  "       formula [--log_level LEVEL] eval DEFINITION X [X ...]\n" ++
  "       formula [--log_level LEVEL] sample DEFINITION [--x0 X0] [--x1 X1] [--dx DX] [--output_path PATH]\n"

end Formula.Command

open Formula.Command

def main (arguments : List String) : IO UInt32 := do
  match answer arguments with
  | .stopped stop =>
    if stop = .help then IO.print usage else IO.eprint usage
    return stop.status.toUInt32
  | .failed error log =>
    IO.eprint log
    IO.eprintln error.message
    return 1
  | .finished result log =>
    for file in result.files do
      -- To pack a file is left to other programs.
      if file.packing?.isSome then throw (.userError (file.path ++ ": packed files are not written"))
      IO.FS.writeFile file.path file.text
    IO.eprint log
    IO.print result.output
    return result.status.toUInt32
