import TextScore.Command.Run

/-! The command on the file system of the machine it runs on. -/
namespace TextScore.Command

def fileError : IO.Error → FileError
  | .noFileOrDirectory .. => .notFound
  | .inappropriateType _ code details | .invalidArgument _ code details
  | .permissionDenied _ code details | .resourceExhausted _ code details =>
    .other (details ++ " (os error " ++ code.toNat.repr ++ ")")
  | e => .other (toString e)

def attempt {α : Type} (action : IO α) : IO (Except FileError α) := do
  try
    return .ok (← action)
  catch e =>
    return .error (fileError e)

def machine : Files IO where
  read path := attempt (IO.FS.readFile path)
  write path content := attempt (IO.FS.writeBinFile path ⟨content.toArray⟩)
  settings := do
    match ← IO.getEnv "HOME" with
    | none => return none
    | some home => match ← attempt (IO.FS.readFile (home ++ "/.scorch/config.yaml")) with
      | .ok text => return some text
      | .error _ => return none

end TextScore.Command

open TextScore.Command in
def main (args : List String) : IO UInt32 := do
  let outcome ← run machine args
  IO.print outcome.stdout
  IO.eprint outcome.stderr
  for line in outcome.log do
    IO.eprintln (" INFO " ++ line)
  return UInt32.ofNat outcome.exit
