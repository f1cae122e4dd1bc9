/-
# Reading JSON

The tokens of a document are read one by one.  What has been read so far is a `State`: the
containers that are still open, the innermost first, and what may come next.  The state after
the last token tells the value, if it is complete; no recursion follows the nesting of the
document, so a document may be nested to any depth.
-/
import OneBit.Json.Token

namespace OneBit.Json

/-- A container that is still open, with what it holds so far, the last item first. -/
inductive Frame
  | items (done : List Json)
  | members (done : List (Option String × Json)) (key : Option String)

/-- What has been read, and what may come next. -/
inductive State
  /-- A value. -/
  | value (stack : List Frame)
  /-- A value, or the end of the array that was just opened. -/
  | firstItem (stack : List Frame)
  /-- A key, or the end of the object that was just opened. -/
  | firstKey (stack : List Frame)
  /-- A key of an object that has members. -/
  | key (done : List (Option String × Json)) (stack : List Frame)
  /-- The colon after a key. -/
  | colon (done : List (Option String × Json)) (key : Option String) (stack : List Frame)
  /-- A comma, or the end of the container that `v` is in, or of the document. -/
  | after (v : Json) (stack : List Frame)

/-- The state after the first token of a value. -/
def startValue (stack : List Frame) : Token → Option State
  | .openArray => some (.firstItem stack)
  | .openObject => some (.firstKey stack)
  | .text s => some (.after (.string s) stack)
  | .atom v => some (.after v stack)
  | _ => none

/-- The state after one more token. -/
def State.step : State → Token → Option State
  | .value stack, t => startValue stack t
  | .firstItem stack, .closeArray => some (.after (.array []) stack)
  | .firstItem stack, t => startValue (.items [] :: stack) t
  | .firstKey stack, .closeObject => some (.after (.object []) stack)
  | .firstKey stack, .text k => some (.colon [] k stack)
  | .key done stack, .text k => some (.colon done k stack)
  | .colon done k stack, .colon => some (.value (.members done k :: stack))
  | .after v (.items done :: stack), .comma => some (.value (.items (v :: done) :: stack))
  | .after v (.items done :: stack), .closeArray =>
    some (.after (.array (v :: done).reverse) stack)
  | .after v (.members done k :: stack), .comma => some (.key ((k, v) :: done) stack)
  | .after v (.members done k :: stack), .closeObject =>
    some (.after (.object ((k, v) :: done).reverse) stack)
  | _, _ => none

/-- The value of a complete document. -/
def State.value? : State → Option Json
  | .after v [] => some v
  | _ => none

/-- The value that a list of tokens spells. -/
def ofTokens? (tokens : List Token) : Option Json :=
  (tokens.foldlM State.step (.value [])).bind State.value?

/-- The value of a document. -/
def read? (document : String) : Option Json :=
  (scan document.toList).bind ofTokens?

end OneBit.Json
