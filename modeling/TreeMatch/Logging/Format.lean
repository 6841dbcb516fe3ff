/-!
# Log formats

The two forms in which a run writes its log.
-/

namespace TreeMatch

/-- How a line of the log is written. -/
inductive LogFormat where
  /-- An object of JSON. -/
  | json
  /-- A line of text. -/
  | compact
deriving DecidableEq

namespace LogFormat

/-- The format of a run that asks for none is `compact`. -/
instance : Inhabited LogFormat := ⟨compact⟩

/-- The name of a format. -/
def name : LogFormat → String
  | json => "json"
  | compact => "compact"

/-- The format of a name, whatever the case of its letters. -/
def ofName? (text : String) : Option LogFormat :=
  [json, compact].find? fun format => text.toList.map Char.toLower == format.name.toList

/-- The wording for a name that is no format's. -/
def unknownName : String := "Matching variant not found"

end LogFormat

end TreeMatch
