import TreeMatch.Logging.Filter
import TreeMatch.Logging.Format

/-!
# Log lines

How an event is written into the log, in both formats.
-/

namespace TreeMatch

namespace EventValue

/-- A value in a line of text. -/
def toText : EventValue → String
  | text held => Quoted.write held
  | shown held => held
  | count n => toString n
  | flag value => if value then "true" else "false"

/-- A value in an object. -/
def toNode : EventValue → Node
  | text held | shown held => .string held
  | count n => ((Number.ofInt? n).map .number).getD (.string (toString n))
  | flag value => .bool value

end EventValue

namespace Event

/-- The line of text of an event. -/
def toText (event : Event) : String :=
  event.level.name ++ " " ++ event.target ++ ": " ++ event.message ++
    String.join (event.values.map fun (name, value) => " " ++ name ++ "=" ++ value.toText)

/-- The object of an event, with its values beside its level, message and target. -/
def toNode (event : Event) : Node :=
  .ofPairs ([("level", .string event.level.name), ("message", .string event.message),
    ("target", .string event.target)] ++ event.values.map fun (name, value) => (name, value.toNode))

end Event

/-- The settings of a log. -/
structure LogSettings where
  filter : LogFilter
  format : LogFormat

namespace LogSettings

/-- The events that go into the log. -/
def taken (settings : LogSettings) (events : List Event) : List Event :=
  events.filter settings.filter.takes

/-- The line of an event. -/
def line (settings : LogSettings) (event : Event) : String :=
  match settings.format with
  | .json => Json.compact event.toNode
  | .compact => event.toText

end LogSettings

end TreeMatch
