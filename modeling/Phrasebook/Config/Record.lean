import Phrasebook.Config
import Phrasebook.Record

/-!
# Configurations as records

The fields of a configuration, in the order in which they are written. A field that may be left out
is written only when it is not empty: a list without items and a list that is not there look alike
then, and so both are read as a list that is not there.
-/

namespace Phrasebook

namespace TypeDefinition

/-- The fields of a value type. -/
def shape : Shape :=
  .record [(Text.ofString "name", .text), (Text.ofString "pattern", .text),
    (Text.ofString "literal", .text), (Text.ofString "values", .list .text)]

/-- The record of a value type. -/
def toRecord (d : TypeDefinition) : Record :=
  Record.one "name" (.text d.name) ++
    Record.oneIf (!d.pattern.isEmpty) "pattern" (.text d.pattern) ++
    Record.oneIf (!d.literal.isEmpty) "literal" (.text d.literal) ++
    Record.oneIf (!d.values.isEmpty) "values" (.list (d.values.map .text))

/-- The value type of a record. -/
def ofRecord (r : Record) : TypeDefinition where
  name := r.text "name"
  pattern := r.text "pattern"
  literal := r.text "literal"
  values := (r.texts? "values").getD []

end TypeDefinition

namespace PhraseDefinition

/-- The fields of a phrase. -/
def shape : Shape :=
  .record [(Text.ofString "name", .text), (Text.ofString "kind", .text),
    (Text.ofString "returns", .text), (Text.ofString "patterns", .list .text)]

/-- The record of a phrase. -/
def toRecord (d : PhraseDefinition) : Record :=
  Record.one "name" (.text d.name) ++
    Record.one "kind" (.text d.kind) ++
    Record.oneIf (!d.returns.isEmpty) "returns" (.text d.returns) ++
    Record.one "patterns" (.list (d.patterns.map .text))

/-- The phrase of a record. -/
def ofRecord (r : Record) : PhraseDefinition where
  name := r.text "name"
  kind := r.text "kind"
  returns := r.text "returns"
  patterns := (r.texts? "patterns").getD []

end PhraseDefinition

namespace Case

/-- The fields of a case. -/
def shape : Shape :=
  .record [(Text.ofString "input", .text), (Text.ofString "expect", .text),
    (Text.ofString "mark", .integer), (Text.ofString "values", .list .text)]

/-- The record of a case. -/
def toRecord (c : Case) : Record :=
  let values := c.values.getD []
  Record.one "input" (.text c.input) ++
    Record.oneIf (!c.expect.isEmpty) "expect" (.text c.expect) ++
    Record.oneIf c.mark.isSome "mark" (.integer (c.mark.getD 0)) ++
    Record.oneIf (!values.isEmpty) "values" (.list (values.map .text))

/-- The case of a record. -/
def ofRecord (r : Record) : Case where
  input := r.text "input"
  expect := r.text "expect"
  mark := r.integer? "mark"
  values := r.texts? "values"

end Case

namespace Config

/-- The fields of a configuration. -/
def fields : List (Text × Shape) :=
  [(Text.ofString "name", .text), (Text.ofString "case_sensitive", .boolean),
    (Text.ofString "regex_timeout", .text), (Text.ofString "max_depth", .integer),
    (Text.ofString "types", .list TypeDefinition.shape),
    (Text.ofString "syntaxes", .list PhraseDefinition.shape),
    (Text.ofString "cases", .list Case.shape)]

/-- The record of a configuration. -/
def toRecord (c : Config) : Record :=
  Record.one "name" (.text c.name) ++
    Record.oneIf c.caseSensitive "case_sensitive" (.boolean true) ++
    Record.oneIf (!c.regexTimeout.isEmpty) "regex_timeout" (.text c.regexTimeout) ++
    Record.oneIf (c.maxDepth != 0) "max_depth" (.integer c.maxDepth) ++
    Record.oneIf (!c.types.isEmpty) "types" (.list (c.types.map fun d => .record d.toRecord)) ++
    Record.one "syntaxes" (.list (c.phrases.map fun d => .record d.toRecord)) ++
    Record.oneIf (!c.cases.isEmpty) "cases" (.list (c.cases.map fun d => .record d.toRecord))

/-- The configuration of a record. -/
def ofRecord (r : Record) : Config where
  name := r.text "name"
  caseSensitive := r.isTrue "case_sensitive"
  regexTimeout := r.text "regex_timeout"
  maxDepth := (r.integer? "max_depth").getD 0
  types := (r.records "types").map TypeDefinition.ofRecord
  phrases := (r.records "syntaxes").map PhraseDefinition.ofRecord
  cases := (r.records "cases").map Case.ofRecord

end Config

end Phrasebook
