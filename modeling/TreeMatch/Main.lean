import TreeMatch.Run

/-!
# Program

Gathers what a run can read, and puts into effect what it leaves behind.
-/

namespace TreeMatch.Program

/-- The bytes that an action reads, or why it does not succeed. -/
def attempt (action : IO ByteArray) : IO (Except String ByteArray) := do
  try
    let bytes ← action
    pure (.ok bytes)
  catch error => pure (.error (toString error))

/-- What the readers here say: not where they give up, but what they have read for. -/
def reasons : Reasons where
  logFilter _ := "not a list of rules"
  document _ := "not one document of YAML"
  tree _ := "not one value"

/-- Nothing reads what an invocation does not ask for. -/
def unread : Except String ByteArray := .error "not read"

/-- The surroundings of a run. Only its own files are read, and standard input only for its tree. -/
def surroundings (arguments : List String) : IO Surroundings := do
  let found : List (String × Except String ByteArray) × Except String ByteArray ←
    match CommandLine.read arguments with
    | .ok (.invoke invocation) => do
      let pattern ← attempt (IO.FS.readBinFile invocation.pattern)
      let files := [(invocation.pattern, pattern)]
      if invocation.reachesTree reasons pattern then
        match invocation.tree? with
        | some path => do
          let tree ← attempt (IO.FS.readBinFile path)
          pure ((path, tree) :: files, unread)
        | none => do
          let input ← attempt do (← IO.getStdin).readBinToEnd
          pure (files, input)
      else pure (files, unread)
    | _ => pure ([], unread)
  pure {
    file := fun path => (found.1.lookup path).getD unread
    input := found.2
    outputRoom? := none
    errorRoom? := none
    logState := .fresh
    reasons := reasons }

/-- Writes bytes to a stream, and says whether it took them. -/
def put (stream : IO.FS.Stream) (bytes : List UInt8) : IO Bool := do
  try
    stream.write ⟨bytes.toArray⟩
    stream.flush
    pure true
  catch _ => pure false

/-- The log of a run. -/
def logText (result : Logged Outcome) : String :=
  match result.value.log? with
  | some settings => String.join ((settings.taken result.events).map fun event => settings.line event ++ "\n")
  | none => ""

end TreeMatch.Program

/-- Runs the program. An output that refuses the result is one without room. -/
def main (arguments : List String) : IO UInt32 := do
  let surroundings ← TreeMatch.Program.surroundings arguments
  let result := TreeMatch.run arguments surroundings
  let accepted ← TreeMatch.Program.put (← IO.getStdout) result.value.output
  let final :=
    if accepted then result else TreeMatch.run arguments { surroundings with outputRoom? := some 0 }
  let log := TreeMatch.bytesOf (TreeMatch.Program.logText final)
  let _ ← TreeMatch.Program.put (← IO.getStderr) (log ++ final.value.errors)
  pure final.value.status.code.toUInt32
