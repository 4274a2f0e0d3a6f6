/-!
# Faults of a YAML text

Why a text has no value. Most faults are of one kind: the text breaks the rules of YAML, or
says something that no value answers to. Apart from these stand the escapes that stand for no
character and the scalars that are tagged as something they do not write, because whoever
reads settings tells them apart.
-/

namespace QueryTypes

namespace Yaml

/-- Why a text has no value. -/
inductive Fault where
  /-- The text breaks the rules of YAML. -/
  | malformed
  /-- An escape stands for no character. -/
  | noCharacter
  /-- A number has more digits than fit, in an escape or in base sixty. -/
  | tooLarge
  /-- A scalar does not write the number it is tagged as, or the number of a version has too
  many digits. -/
  | notNumber
  /-- A scalar is tagged as a number and writes nothing. -/
  | emptyNumber
  /-- A scalar does not write the truth value it is tagged as. -/
  | notTruth
  /-- A scalar does not write the time it is tagged as. -/
  | notTime
  /-- A scalar writes a time that does not exist. -/
  | noTime
  /-- A mapping is tagged as a time. -/
  | timeOfMapping
  deriving DecidableEq

/-- A value, or the fault that the text breaks the rules of YAML. -/
def orMalformed {α : Type} : Option α → Except Fault α
  | some a => .ok a
  | none => .error .malformed

end Yaml

end QueryTypes
