/-
  RulePlan.Main — the console program.

  It reads `condition_config.json` from the working directory, prints the opening of the
  session and then answers each line of standard input until one ends the session.
-/

import RulePlan.Console

namespace RulePlan.Console

def settingsFile : String := "condition_config.json"

def settingsSource : IO Settings.Source := do
  try
    return .bytes (← IO.FS.readBinFile settingsFile)
  catch e => match e with
    | .noFileOrDirectory .. => return .missing
    | _ => return .unreadable

partial def answerLines (settings : Settings) (input : IO.FS.Stream) : IO Ending := do
  let line ← input.getLine
  if line.isEmpty then return .finished
  let chars := line.toList
  match reply settings (if chars.getLast? = some '\n' then chars.dropLast else chars) with
  | .answer lines =>
    for text in lines do
      IO.println text
    answerLines settings input
  | .stop ending => return ending

/-- The session on standard input and output. -/
def run : IO Ending := do
  let settings := settingsOf (← settingsSource)
  for line in opening settings do
    IO.println line
  answerLines settings (← IO.getStdin)

end RulePlan.Console

def main : IO UInt32 := do
  return (← RulePlan.Console.run).exitCode
