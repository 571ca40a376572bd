import MessageBridge.Json.Scanner

/-!
# Reading JSON

A text is a JSON document when its pieces nest to exactly one value. Containers nest at most 127
deep, and of a repeated member name the last value counts, in the place of the first.
-/

namespace MessageBridge.Json

/-- The decisions of JSON: no comma before a closing bracket, and a bound on nesting. -/
def rules : Nesting.Rules String Value where
  list := .array
  record := fun members ↦ .object (Named.ofList members)
  trailingComma := false
  maxDepth := some 127

/-- The value that a text spells. -/
def Value.ofChars? (s : List Char) : Option Value := (pieces? s).bind (Nesting.value? rules)

/-- The value that a text spells. -/
def Value.ofString? (s : String) : Option Value := ofChars? s.toList

/-- The value that bytes spell as UTF-8 text. -/
def Value.ofBytes? (bytes : ByteArray) : Option Value :=
  (String.fromUTF8? bytes).bind ofString?

end MessageBridge.Json
