import CellMachine.Text.Basic

/-! # Commands

The arguments of an invocation name a command, or are refused. Of several things that could be said
against the arguments, the first from the left is.

* `Command`: what can be asked for.
* `Refusal`, `Refusal.message`: why arguments are refused, and what is then written.
* `Command.ofArgs`: the command that the arguments name. -/

namespace CellMachine

/-- **Commands.** -/
inductive Command where
  | help
  /-- Run the script at a path, with or without the echo of its lines. -/
  | run (quiet : Bool) (path : Text)
  /-- Hold a dialogue on standard input. -/
  | repl
deriving DecidableEq, Repr

/-- **Why arguments are refused.** -/
inductive Refusal where
  | noCommand
  | unknownCommand (argument : Text)
  /-- An argument of the command `run` looks like an option and is none. -/
  | unknownOption (argument : Text)
  | secondPath (argument : Text)
  | noPath
  | replArgument (argument : Text)
deriving DecidableEq, Repr

/-! ## Messages -/

/-- How the program is used. -/
def usage : Text :=
  ("Usage: compsim <command> [args]\n\n" ++
    "Commands:\n" ++
    "  run <script> [--quiet]   Run a script, echoing each line\n" ++
    "  repl                     Read lines from stdin until exit()\n").toList

/-- How the command `run` is used. -/
def runUsage : Text := "Usage: compsim run <script> [--quiet]\n".toList

/-- How the command `repl` is used. -/
def replUsage : Text := "Usage: compsim repl\n".toList

/-- What is written when arguments are refused. -/
def Refusal.message : Refusal → Text
  | noCommand => usage
  | unknownCommand argument =>
    "error: unknown command '".toList ++ argument ++ "'\n\n".toList ++ usage
  | unknownOption argument =>
    "error: unknown option '".toList ++ argument ++ "'\n".toList ++ runUsage
  | secondPath argument =>
    "error: unexpected argument '".toList ++ argument ++ "'\n".toList ++ runUsage
  | noPath => "error: run requires a script file\n".toList ++ runUsage
  | replArgument argument =>
    "error: unexpected argument '".toList ++ argument ++ "'\n".toList ++ replUsage

/-! ## Arguments -/

namespace Command

/-- Whether an argument asks for quiet. -/
def isQuietFlag (argument : Text) : Bool :=
  argument == "--quiet".toList || argument == "-q".toList

/-- The command `run` from its arguments, given the flag and the path found so far. -/
def runArgs (quiet : Bool) (path : Option Text) : List Text → Except Refusal Command
  | [] =>
    match path with
    | some path => .ok (run quiet path)
    | none => .error .noPath
  | argument :: rest =>
    if isQuietFlag argument then runArgs true path rest
    else if argument.head? = some '-' then .error (.unknownOption argument)
    else
      match path with
      | none => runArgs quiet (some argument) rest
      | some _ => .error (.secondPath argument)

/-- The command `repl` from its arguments. -/
def replArgs : List Text → Except Refusal Command
  | [] => .ok repl
  | argument :: _ => .error (.replArgument argument)

/-- **The command that the arguments name.** -/
def ofArgs : List Text → Except Refusal Command
  | [] => .error .noCommand
  | name :: rest =>
    if name = "run".toList then runArgs false none rest
    else if name = "repl".toList then replArgs rest
    else if name = "--help".toList ∨ name = "-h".toList ∨ name = "help".toList then .ok help
    else .error (.unknownCommand name)

end Command

end CellMachine
