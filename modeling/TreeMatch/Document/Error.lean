/-!
# Errors of pattern documents

Why a text or a tree is no pattern document, and the wording of it.
-/

namespace TreeMatch

/-- What is wrong with the value or the company of a known directive. -/
inductive DirectiveFault where
  /-- A directive that must be the only key of its mapping is not. -/
  | notAlone (directive : String)
  /-- An exact sequence is not given as an array. -/
  | exactNotArray
  /-- The name of an extraction is not a text. -/
  | nameNotText
  /-- The pattern of an extraction comes without the name. -/
  | matchWithoutName

/-- The wording of a fault. -/
def DirectiveFault.message : DirectiveFault → String
  | notAlone directive => "`" ++ directive ++ "` cannot be combined with other directives"
  | exactNotArray => "`$exact` expects a sequence"
  | nameNotText => "`$extract` expects a capture name string"
  | matchWithoutName => "`$match` is only valid alongside `$extract`"

/-- Why there is no pattern. Paths are pointers into the document. -/
inductive DocumentError where
  /-- The text is not one acceptable document. -/
  | parse (reason : String)
  /-- A mapping has a directive that does not exist. -/
  | unknownDirective (path directive : String)
  /-- A mapping has directives and a plain key. -/
  | mixedDirective (path key : String)
  /-- A mapping's directives have a wrong form. -/
  | invalidDirective (path detail : String)

namespace DocumentError

/-- The place of an error, if it has one. -/
def path? : DocumentError → Option String
  | parse _ => none
  | unknownDirective path _ | mixedDirective path _ | invalidDirective path _ => some path

/-- The wording of a place. -/
def placeText (path : String) : String := if path = "" then "document root" else "`" ++ path ++ "`"

/-- The wording of an error. -/
def message : DocumentError → String
  | parse reason => "failed to parse pattern document: " ++ reason
  | unknownDirective path directive =>
    "unknown directive `" ++ directive ++ "` at " ++ placeText path
  | mixedDirective path key =>
    "directive mapping at " ++ placeText path ++ " also contains plain key `" ++ key ++
      "`; escape literal keys with `$literal`"
  | invalidDirective path detail => "invalid directive at " ++ placeText path ++ ": " ++ detail

end DocumentError

end TreeMatch
