import Postbox.Command.Invocation

/-!
# Usage

What the program says about itself and about command lines that it cannot read.
-/

namespace Postbox

/-- What is said of a command line that cannot be read. -/
def UsageError.message : UsageError → String
  | unknownOption argument | unexpectedWord argument =>
    "unexpected argument '" ++ argument.display ++ "' found"
  | unexpectedValue option => "no value is expected for '--" ++ option ++ "'"
  | missingValue option => "a value is required for '--" ++ option ++ "'"
  | invalidValue option value =>
    "invalid value '" ++ value.display ++ "' for '--" ++ option ++ "'"
  | invalidWord argument => "invalid argument '" ++ argument.display ++ "'"
  | repeated option => "'--" ++ option ++ "' cannot be used more than once"
  | conflict first second => "'" ++ first ++ "' cannot be used with '--" ++ second ++ "'"
  | missingWord name => "'" ++ name ++ "' is required"
  | missingCommand => "a command is required"
  | unknownCommand argument => "unrecognized command '" ++ argument.display ++ "'"

namespace CommandLine

/-- The name and the version of the program. -/
def versionText : String :=
  "maildrop 0.3.0\n"

/-- How to use the program. -/
def usage : String :=
  String.join (
    ["Send and receive messages through directory mailboxes\n",
     "\n",
     "Usage: maildrop [--dir DIR] [--config FILE] COMMAND\n",
     "\n",
     "Commands:\n",
     "  send RECIPIENT [MESSAGE] [--stdin] [--sync] [-v|--verbose] [--json]\n",
     "  recv [--wait] [--timeout SECONDS] [--interval-ms N] [--order ORDER] [--json]\n",
     "  pending [--order ORDER] [--json]\n",
     "  recover [--json]\n"])

end CommandLine

end Postbox
